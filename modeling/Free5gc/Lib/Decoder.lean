/-
  Decoders of byte strings: every index and every slice may lie outside the data, and a loop that
  takes the data turn by turn may get nowhere. Nothing in this file names the repository.

  `Sound` says that a decoder returns a value or an error. A loop is sound if its turns move on
  (`sound_loop`), and it reads back what was written chunk by chunk (`loop_chunk`).
-/
import Free5gc.Lib.Bytes
import Free5gc.Lib.Fallible

namespace Free5gc.Lib

/-- How a decoder fails: with an error, by an access outside its data (`panic`, or a read up to
    the capacity of the slice), or by never returning. -/
inductive Fault where
  | error (text : String)
  | outside
  | stuck
  deriving DecidableEq, Repr

variable {α β σ : Type}

def Sound (x : Except Fault α) : Prop := x ≠ .error .outside ∧ x ≠ .error .stuck

instance (x : Except Fault α) [DecidableEq α] : Decidable (Sound x) :=
  inferInstanceAs (Decidable (_ ∧ _))

/-- An error put behind the text of its caller. -/
def Fault.wrap (text : String) : Fault → Fault
  | .error e => .error (text ++ e)
  | f => f

def wrapError (text : String) : Except Fault α → Except Fault α
  | .ok a => .ok a
  | .error f => .error (f.wrap text)

variable {x : Except Fault α} {b : List UInt8} {lo hi : Nat}

@[simp] theorem ok_bind (a : α) (f : α → Except Fault β) : (Except.ok a >>= f) = f a := rfl

@[simp] theorem error_bind (e : Fault) (f : α → Except Fault β) :
    ((.error e : Except Fault α) >>= f) = .error e := rfl

@[simp] theorem sound_ok (a : α) : Sound (.ok a : Except Fault α) := by simp [Sound]

@[simp] theorem sound_error (text : String) :
    Sound (.error (.error text) : Except Fault α) := by simp [Sound]

@[simp] theorem not_sound_outside : ¬Sound (.error .outside : Except Fault α) := by simp [Sound]

theorem sound_wrapError {text : String} : Sound (wrapError text x) ↔ Sound x := by
  rcases x with (_ | _ | _) | a <;> simp [wrapError, Fault.wrap, Sound]

theorem wrapError_eq_ok {text : String} {a : α} : wrapError text x = .ok a ↔ x = .ok a := by
  cases x <;> simp [wrapError]

theorem sound_map {f : α → β} : Sound (f <$> x) ↔ Sound x := by
  rcases x with (_ | _ | _) | a <;> simp [Sound]

theorem sound_bind {f : α → Except Fault β} :
    Sound (x >>= f) ↔ Sound x ∧ ∀ a, x = .ok a → Sound (f a) := by
  cases x with
  | ok a => simp
  | error e => rcases e with _ | _ | _ <;> simp [Sound]

theorem sound_bind_of_sound {f : α → Except Fault β} (hf : ∀ a, Sound (f a)) :
    Sound (x >>= f) ↔ Sound x := by
  rw [sound_bind]
  exact and_iff_left fun a _ => hf a

/-- `if c { return errors.New(text) }`. -/
def failIf (c : Prop) [Decidable c] (text : String) : Except Fault Unit :=
  if c then .error (.error text) else .ok ()

section

variable {c : Prop} [Decidable c] {text : String} {f : Unit → Except Fault α}

theorem sound_failIf : Sound (failIf c text >>= f) ↔ (¬c → Sound (f ())) := by
  unfold failIf
  split_ifs with h <;> simp [h]

theorem failIf_eq_ok {a : α} : (failIf c text >>= f) = .ok a ↔ ¬c ∧ f () = .ok a := by
  unfold failIf
  split_ifs with h <;> simp [h]

theorem failIf_pass (h : ¬c) : (failIf c text >>= f) = f () := by
  rw [failIf, if_neg h, ok_bind]

end

/-! ## Accesses -/

/-- `b[i]`. -/
def index (b : List UInt8) (i : Nat) : Except Fault UInt8 :=
  if i < b.length then .ok (b.getD i 0) else .error .outside

/-- `b[lo:hi]`. -/
def cut (b : List UInt8) (lo hi : Nat) : Except Fault (List UInt8) :=
  if lo ≤ hi ∧ hi ≤ b.length then .ok ((b.drop lo).take (hi - lo)) else .error .outside

/-- `binary.BigEndian.Uint16(b[lo:lo+2])`. -/
def readU16 (b : List UInt8) (lo : Nat) : Except Fault Nat := beNat <$> cut b lo (lo + 2)

/-- `binary.BigEndian.Uint32(b[lo:lo+4])`. -/
def readU32 (b : List UInt8) (lo : Nat) : Except Fault Nat := beNat <$> cut b lo (lo + 4)

theorem index_eq {i : Nat} (h : i < b.length) : index b i = .ok (b.getD i 0) :=
  if_pos h

theorem cut_eq (h : lo ≤ hi) (h' : hi ≤ b.length) :
    cut b lo hi = .ok ((b.drop lo).take (hi - lo)) := if_pos ⟨h, h'⟩

theorem cut_outside (h : hi < lo ∨ b.length < hi) :
    cut b lo hi = .error .outside := if_neg (by omega)

theorem sound_cut : Sound (cut b lo hi) ↔ lo ≤ hi ∧ hi ≤ b.length := by
  unfold cut
  split_ifs with h <;> simp [h]

/-- The rest of the data from a position on. -/
theorem cut_drop (h : lo ≤ b.length) : cut b lo b.length = .ok (b.drop lo) := by
  rw [cut_eq h (Nat.le_refl _), List.take_of_length_le (by simp)]

theorem readU16_eq (h : lo + 2 ≤ b.length) : readU16 b lo = .ok (beNat ((b.drop lo).take 2)) := by
  simp [readU16, cut_eq (Nat.le_add_right lo 2) h]

theorem readU32_eq (h : lo + 4 ≤ b.length) : readU32 b lo = .ok (beNat ((b.drop lo).take 4)) := by
  simp [readU32, cut_eq (Nat.le_add_right lo 4) h]

theorem beNat_take_lt (b : List UInt8) (k : Nat) : beNat (b.take k) < 256 ^ k :=
  lt_of_lt_of_le (beNat_lt _) (Nat.pow_le_pow_right (by decide) (by simp))

theorem take_beBytes (k v : Nat) (c : List UInt8) : (beBytes k v ++ c).take k = beBytes k v := by
  simp

theorem drop_beBytes (k v : Nat) (c : List UInt8) : (beBytes k v ++ c).drop k = c := by simp

@[simp] theorem drop_beBytes_of_le {k j : Nat} (h : k ≤ j) (v : Nat) : (beBytes k v).drop j = [] :=
  List.drop_eq_nil_of_le (by simpa using h)

theorem ofNat_beBytes_16 (v : UInt16) : UInt16.ofNat (beNat (beBytes 2 v.toNat)) = v := by
  rw [beNat_beBytes_of_lt (show v.toNat < 256 ^ 2 from v.toNat_lt), UInt16.ofNat_toNat]

theorem ofNat_beBytes_32 (v : UInt32) : UInt32.ofNat (beNat (beBytes 4 v.toNat)) = v := by
  rw [beNat_beBytes_of_lt (show v.toNat < 256 ^ 4 from v.toNat_lt), UInt32.ofNat_toNat]

theorem ofNat_beBytes_64 (v : UInt64) : UInt64.ofNat (beNat (beBytes 8 v.toNat)) = v := by
  rw [beNat_beBytes_of_lt (show v.toNat < 256 ^ 8 from v.toNat_lt), UInt64.ofNat_toNat]

/-! ## Loops -/

/-- `for len(data) >= m { … }`: a turn takes the state and the data and returns what is left of
    both. -/
def loop (m : Nat) (turn : σ → List UInt8 → Except Fault (σ × List UInt8)) :
    Nat → σ → List UInt8 → Except Fault σ
  | 0, s, data => if data.length < m then .ok s else .error .stuck
  | n + 1, s, data =>
    if data.length < m then .ok s else turn s data >>= fun r => loop m turn n r.1 r.2

/-- The states and data with which the turns of a loop begin. -/
def turns (m : Nat) (turn : σ → List UInt8 → Except Fault (σ × List UInt8)) :
    Nat → σ → List UInt8 → List (σ × List UInt8)
  | 0, _, _ => []
  | n + 1, s, data =>
    if data.length < m then []
    else (s, data) :: (turn s data).toOption.elim [] fun r => turns m turn n r.1 r.2

section

variable {m n : Nat} {turn : σ → List UInt8 → Except Fault (σ × List UInt8)} {s : σ}
  {data : List UInt8}

theorem loop_done (h : data.length < m) : loop m turn n s data = .ok s := by
  cases n <;> exact if_pos h

theorem loop_succ (h : m ≤ data.length) :
    loop m turn (n + 1) s data = turn s data >>= fun r => loop m turn n r.1 r.2 :=
  if_neg (by omega)

/-- A chunk that its turn takes off the data. -/
theorem loop_chunk {s' : σ} {chunk rest : List UInt8} (hm : m ≤ chunk.length)
    (h : turn s (chunk ++ rest) = .ok (s', rest)) :
    loop m turn (n + 1) s (chunk ++ rest) = loop m turn n s' rest := by
  rw [loop_succ (by simp; omega), h, ok_bind]

theorem turns_succ (h : m ≤ data.length) : turns m turn (n + 1) s data =
    (s, data) :: (turn s data).toOption.elim [] fun r => turns m turn n r.1 r.2 :=
  if_neg (by omega)

/-- A turn begins with data that it may look at. -/
theorem length_of_mem_turns {t : σ × List UInt8} (h : t ∈ turns m turn n s data) :
    m ≤ t.2.length := by
  induction n generalizing s data with
  | zero => simp [turns] at h
  | succ n ih =>
    by_cases hlen : data.length < m
    · simp [turns, hlen] at h
    · rw [turns_succ (by omega)] at h
      obtain rfl | h := List.mem_cons.mp h
      · exact Nat.le_of_not_lt hlen
      · cases hturn : turn s data with
        | error e => simp [hturn, Except.toOption] at h
        | ok r => exact ih (by simpa [hturn, Except.toOption] using h)

/-- What holds at the end of a loop that returns holds at its beginning if each turn passes it on to
    the turn before. -/
theorem loop_induction (P : σ → List UInt8 → σ → Prop) (hdone : ∀ s d, d.length < m → P s d s)
    (hturn : ∀ s d r s', m ≤ d.length → turn s d = .ok r → P r.1 r.2 s' → P s d s') {s' : σ}
    (h : loop m turn n s data = .ok s') : P s data s' := by
  induction n generalizing s data with
  | zero =>
    unfold loop at h
    split at h
    · exact Except.ok.inj h ▸ hdone s data ‹_›
    · exact absurd h (by simp)
  | succ n ih =>
    by_cases hlen : data.length < m
    · rw [loop_done hlen] at h
      exact Except.ok.inj h ▸ hdone s data hlen
    · rw [loop_succ (by omega)] at h
      obtain ⟨r, hr, h⟩ := bind_eq_ok.mp h
      exact hturn s data r s' (by omega) hr (ih h)

/-- What every turn keeps holds after the loop. -/
theorem loop_inv (I : σ → Prop) (hturn : ∀ s d r, turn s d = .ok r → I s → I r.1) {s' : σ}
    (h : loop m turn n s data = .ok s') (hs : I s) : I s' :=
  loop_induction (fun s _ s' => I s → I s') (fun _ _ _ hs => hs)
    (fun s d r _ _ hr ih hs => ih (hturn s d r hr hs)) h hs

/-- A loop whose turns shorten the data is sound exactly if each turn that it makes is. -/
theorem sound_loop (hm : 0 < m)
    (hturn : ∀ s d r, m ≤ d.length → turn s d = .ok r → r.2.length < d.length)
    (hn : data.length ≤ n) :
    Sound (loop m turn n s data) ↔ ∀ t ∈ turns m turn n s data, Sound (turn t.1 t.2) := by
  induction n generalizing s data with
  | zero =>
    have hdone : data.length < m := by omega
    simp [loop_done hdone, turns]
  | succ n ih =>
    by_cases hlen : data.length < m
    · simp [loop_done hlen, turns, hlen]
    · rw [loop_succ (by omega), sound_bind, turns_succ (by omega), List.forall_mem_cons]
      refine and_congr_right fun _ => ?_
      cases h : turn s data with
      | error e => simp [Except.toOption]
      | ok r =>
        have hr := hturn s data r (by omega) h
        simp [Except.toOption, ih (by omega : r.2.length ≤ n)]

end

end Free5gc.Lib
