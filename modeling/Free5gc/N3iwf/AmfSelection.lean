/-
  N3IWF: the AMF of a UE (`AMFSelection` of `internal/context/context.go`, with the comparisons of
  `internal/context/amf.go`).

  The pool is walked once, in any order, and every AMF is asked for the GUAMI and then for the PLMN
  before the next one has its turn. An AMF that supports the PLMN is therefore taken although a later
  one serves the GUAMI. An AMF whose NG Setup Response had no list of GUAMIs or of PLMNs is in the
  pool with a nil list, and is dereferenced. `selectsNamed_iff` says for which pools neither matters.

  The encoding of a GUAMI is an injection, and fails for an absent one.
-/
import Mathlib.Logic.Embedding.Basic
import Mathlib.Data.List.Basic

namespace Free5gc.N3iwf

/-- A list of an AMF is dereferenced that no NG Setup Response has set. -/
inductive NilList where
  | nilList
  deriving DecidableEq, Repr

structure N3IWFAMF (G : Type) where
  sctpAddr : String
  servedGUAMIList : Option (List G)
  plmnSupportList : Option (List (List UInt8))
  deriving DecidableEq

variable {G : Type} (encode : G ↪ List UInt8)

/-! ## Selection -/

/-- The loop of `FindAvalibleAMFByCompareGUAMI`. -/
def compareGUAMIs (ueSpecifiedGUAMI : Option G) : List G → Bool
  | [] => false
  | served :: rest =>
    match ueSpecifiedGUAMI.map encode with
    | none => false
    | some coded => if encode served = coded then true else compareGUAMIs ueSpecifiedGUAMI rest

def findAvalibleAMFByCompareGUAMI (amf : N3IWFAMF G) (ueSpecifiedGUAMI : Option G) :
    Except NilList Bool :=
  match amf.servedGUAMIList with
  | none => .error .nilList
  | some list => .ok (compareGUAMIs encode ueSpecifiedGUAMI list)

def findAvalibleAMFByCompareSelectedPLMNId (amf : N3IWFAMF G)
    (ueSpecifiedSelectedPLMNId : Option (List UInt8)) : Except NilList Bool :=
  match ueSpecifiedSelectedPLMNId, amf.plmnSupportList with
  | none, _ => .ok false
  | some _, none => .error .nilList
  | some plmn, some list => .ok (list.any (· = plmn))

/-- The function that `Range` calls for each AMF, with `defaultAMF`. -/
def rangeAMFs (guami : Option G) (plmn : Option (List UInt8)) :
    Option (N3IWFAMF G) → List (N3IWFAMF G) → Except NilList (Option (N3IWFAMF G))
  | defaultAMF, [] => .ok defaultAMF
  | defaultAMF, amf :: rest => do
    if ← findAvalibleAMFByCompareGUAMI encode amf guami then .ok (some amf)
    else if ← findAvalibleAMFByCompareSelectedPLMNId amf plmn then .ok (some amf)
    else rangeAMFs guami plmn (defaultAMF.or (some amf)) rest

/-- `AMFSelection`, where `Range` visits the pool in the order of the list. -/
def amfSelection (guami : Option G) (plmn : Option (List UInt8)) (pool : List (N3IWFAMF G)) :
    Except NilList (Option (N3IWFAMF G)) :=
  rangeAMFs encode guami plmn none pool

/-! ## What is asked for -/

variable {encode} {guami : Option G} {plmn : Option (List UInt8)} {amf : N3IWFAMF G}
  {pool order : List (N3IWFAMF G)}

def Serves (guami : Option G) (amf : N3IWFAMF G) : Prop :=
  ∃ g ∈ guami, ∃ list ∈ amf.servedGUAMIList, g ∈ list

def Supports (plmn : Option (List UInt8)) (amf : N3IWFAMF G) : Prop :=
  ∃ p ∈ plmn, ∃ list ∈ amf.plmnSupportList, p ∈ list

/-- An AMF that serves the GUAMI, else one that supports the PLMN, else any; none only of an empty
    pool. -/
def Named (guami : Option G) (plmn : Option (List UInt8)) (pool : List (N3IWFAMF G)) :
    Option (N3IWFAMF G) → Prop
  | none => pool = []
  | some amf => amf ∈ pool ∧ ((∃ a ∈ pool, Serves guami a) → Serves guami amf) ∧
      ((¬ ∃ a ∈ pool, Serves guami a) → (∃ a ∈ pool, Supports plmn a) → Supports plmn amf)

/-- Whatever the order of the pool, the selection returns what is asked for. -/
def SelectsNamed (encode : G ↪ List UInt8) (guami : Option G) (plmn : Option (List UInt8))
    (pool : List (N3IWFAMF G)) : Prop :=
  ∀ order, order.Perm pool → ∃ r, amfSelection encode guami plmn order = .ok r ∧
    Named guami plmn pool r

/-- The lists that the comparisons read. -/
structure Readable (guami : Option G) (plmn : Option (List UInt8)) (amf : N3IWFAMF G) : Prop where
  guamis : amf.servedGUAMIList ≠ none
  plmns : ¬ Serves guami amf → plmn ≠ none → amf.plmnSupportList ≠ none

/-! ## The comparisons -/

theorem compareGUAMIs_iff (list : List G) :
    compareGUAMIs encode guami list = true ↔ ∃ g ∈ guami, g ∈ list := by
  induction list with
  | nil => simp [compareGUAMIs]
  | cons served rest ih =>
    cases guami with
    | none => simp [compareGUAMIs]
    | some g =>
      have heq : served = g ↔ g = served := eq_comm
      simp [compareGUAMIs, encode.injective.eq_iff, ih, heq]

theorem compareGUAMI_cases (encode : G ↪ List UInt8) (guami : Option G) (amf : N3IWFAMF G) :
    (amf.servedGUAMIList = none ∧ findAvalibleAMFByCompareGUAMI encode amf guami = .error .nilList) ∨
      ∃ b, findAvalibleAMFByCompareGUAMI encode amf guami = .ok b ∧ amf.servedGUAMIList ≠ none ∧
        (b = true ↔ Serves guami amf) := by
  unfold findAvalibleAMFByCompareGUAMI Serves
  cases amf.servedGUAMIList with
  | none => exact .inl ⟨rfl, rfl⟩
  | some list => exact .inr ⟨_, rfl, by simp, by simp [compareGUAMIs_iff]⟩

theorem comparePLMN_cases (plmn : Option (List UInt8)) (amf : N3IWFAMF G) :
    ((plmn ≠ none ∧ amf.plmnSupportList = none) ∧
        findAvalibleAMFByCompareSelectedPLMNId amf plmn = .error .nilList) ∨
      ∃ b, findAvalibleAMFByCompareSelectedPLMNId amf plmn = .ok b ∧
        (plmn ≠ none → amf.plmnSupportList ≠ none) ∧ (b = true ↔ Supports plmn amf) := by
  unfold findAvalibleAMFByCompareSelectedPLMNId Supports
  cases plmn with
  | none => exact .inr ⟨false, rfl, by simp, by simp⟩
  | some p =>
    cases amf.plmnSupportList with
    | none => exact .inl ⟨by simp, rfl⟩
    | some list => exact .inr ⟨_, rfl, by simp, by simp⟩

/-- What one AMF does to the walk. -/
theorem rangeAMFs_cons (encode : G ↪ List UInt8) (guami : Option G) (plmn : Option (List UInt8))
    (amf : N3IWFAMF G) (defaultAMF : Option (N3IWFAMF G)) (rest : List (N3IWFAMF G)) :
    (¬ Readable guami plmn amf ∧
        rangeAMFs encode guami plmn defaultAMF (amf :: rest) = .error .nilList) ∨
      Readable guami plmn amf ∧ ((Serves guami amf ∨ Supports plmn amf) ∧
          rangeAMFs encode guami plmn defaultAMF (amf :: rest) = .ok (some amf) ∨
        ¬ (Serves guami amf ∨ Supports plmn amf) ∧
          rangeAMFs encode guami plmn defaultAMF (amf :: rest) =
            rangeAMFs encode guami plmn (defaultAMF.or (some amf)) rest) := by
  rw [rangeAMFs]
  obtain ⟨hnil, h⟩ | ⟨b, h, hsome, hb⟩ := compareGUAMI_cases encode guami amf
  · exact .inl ⟨fun hr => hr.guamis hnil, by rw [h]; rfl⟩
  rw [h]
  by_cases hserves : Serves guami amf
  · obtain rfl := hb.mpr hserves
    exact .inr ⟨⟨hsome, fun hn => absurd hserves hn⟩, .inl ⟨.inl hserves, rfl⟩⟩
  obtain rfl : b = false := by simpa using mt hb.mp hserves
  obtain ⟨hnil, h⟩ | ⟨c, h, hplmn, hc⟩ := comparePLMN_cases plmn amf
  · exact .inl ⟨fun hr => hr.plmns hserves hnil.1 hnil.2, by rw [h]; rfl⟩
  rw [h]
  refine .inr ⟨⟨hsome, fun _ => hplmn⟩, ?_⟩
  by_cases hsupports : Supports plmn amf
  · obtain rfl := hc.mpr hsupports
    exact .inl ⟨.inr hsupports, rfl⟩
  · obtain rfl : c = false := by simpa using mt hc.mp hsupports
    exact .inr ⟨fun hor => hor.elim hserves hsupports, rfl⟩

/-- If all lists can be read, the first AMF that has one of the two is taken, else the first. -/
theorem rangeAMFs_eq_ok (encode : G ↪ List UInt8) (hread : ∀ amf ∈ order, Readable guami plmn amf)
    (defaultAMF : Option (N3IWFAMF G)) :
    (∃ amf ∈ order, (Serves guami amf ∨ Supports plmn amf) ∧
        rangeAMFs encode guami plmn defaultAMF order = .ok (some amf)) ∨
      (∀ amf ∈ order, ¬ (Serves guami amf ∨ Supports plmn amf)) ∧
        rangeAMFs encode guami plmn defaultAMF order = .ok (defaultAMF.or order.head?) := by
  induction order generalizing defaultAMF with
  | nil => exact .inr ⟨by simp, by simp [rangeAMFs]⟩
  | cons amf rest ih =>
    rw [List.forall_mem_cons] at hread
    obtain ⟨hno, -⟩ | ⟨-, ⟨hhas, h⟩ | ⟨hnot, h⟩⟩ := rangeAMFs_cons encode guami plmn amf defaultAMF rest
    · exact absurd hread.1 hno
    · exact .inl ⟨amf, List.mem_cons_self, hhas, h⟩
    · rw [h]
      obtain ⟨a, ha, hhas, h⟩ | ⟨hnone, h⟩ := ih hread.2 (defaultAMF.or (some amf))
      · exact .inl ⟨a, List.mem_cons_of_mem amf ha, hhas, h⟩
      · refine .inr ⟨List.forall_mem_cons.mpr ⟨hnot, hnone⟩, ?_⟩
        rw [h]
        cases defaultAMF <;> rfl

/-! ## The selection -/

theorem selectsNamed_iff [DecidableEq G] (encode : G ↪ List UInt8) (guami : Option G)
    (plmn : Option (List UInt8)) (pool : List (N3IWFAMF G)) :
    SelectsNamed encode guami plmn pool ↔
      (∀ amf ∈ pool, Readable guami plmn amf) ∧
        ((∃ amf ∈ pool, Serves guami amf) → ∀ amf ∈ pool, Supports plmn amf → Serves guami amf) := by
  constructor
  · intro h
    -- every AMF of the pool is the first of some order
    have hfirst : ∀ amf ∈ pool, Readable guami plmn amf ∧ (Supports plmn amf →
        (∃ a ∈ pool, Serves guami a) → Serves guami amf) := by
      intro amf hamf
      obtain ⟨r, hr, hnamed⟩ := h (amf :: pool.erase amf) (List.perm_cons_erase hamf).symm
      unfold amfSelection at hr
      obtain ⟨-, herr⟩ | ⟨hread, htaken⟩ :=
        rangeAMFs_cons encode guami plmn amf none (pool.erase amf)
      · rw [herr] at hr
        cases hr
      · refine ⟨hread, fun hsupports hex => ?_⟩
        obtain ⟨-, htaken⟩ | ⟨hnot, -⟩ := htaken
        · rw [htaken] at hr
          cases hr
          exact hnamed.2.1 hex
        · exact absurd (.inr hsupports) hnot
    exact ⟨fun amf hamf => (hfirst amf hamf).1, fun hex amf hamf hs => (hfirst amf hamf).2 hs hex⟩
  · rintro ⟨hread, hprefer⟩ order hperm
    unfold amfSelection
    obtain ⟨amf, hamf, hhas, h⟩ | ⟨hnone, h⟩ := rangeAMFs_eq_ok encode
      (fun amf hamf => hread amf (hperm.mem_iff.mp hamf)) none
    · have hin := hperm.mem_iff.mp hamf
      refine ⟨some amf, h, hin, fun hex => hhas.elim id (hprefer hex amf hin), fun hno _ => ?_⟩
      exact hhas.resolve_left fun hs => hno ⟨amf, hin, hs⟩
    · rw [h, Option.none_or]
      cases order with
      | nil => exact ⟨none, rfl, List.nil_perm.mp hperm⟩
      | cons amf rest =>
        have hno : ∀ a ∈ pool, ¬ (Serves guami a ∨ Supports plmn a) :=
          fun a ha => hnone a (hperm.mem_iff.mpr ha)
        exact ⟨some amf, rfl, hperm.mem_iff.mp List.mem_cons_self,
          fun ⟨a, ha, hs⟩ => absurd (.inl hs) (hno a ha),
          fun _ ⟨a, ha, hs⟩ => absurd (.inr hs) (hno a ha)⟩

/-- The encoding of a one-octet GUAMI. -/
def octetGUAMI : UInt8 ↪ List UInt8 := ⟨fun g => [g], fun _ _ h => List.singleton_inj.mp h⟩

/-- The first AMF supports the PLMN, the second serves the GUAMI. -/
theorem amfSelection_passes_over :
    amfSelection octetGUAMI (some 5) (some [1, 2, 3])
        [⟨"first", some [], some [[1, 2, 3]]⟩, ⟨"second", some [5], some []⟩] =
      .ok (some ⟨"first", some [], some [[1, 2, 3]]⟩) ∧
    Serves (some 5) (⟨"second", some [5], some []⟩ : N3IWFAMF UInt8) ∧
    ¬ Serves (some 5) (⟨"first", some [], some [[1, 2, 3]]⟩ : N3IWFAMF UInt8) := by
  refine ⟨rfl, ?_, ?_⟩
  · simp [Serves]
  · simp [Serves]

end Free5gc.N3iwf
