import Free5gc.Upf.Forwarder.PerioSystem
import Free5gc.Upf.Forwarder.FlowDesc
import Free5gc.Upf.Pfcp.RemoteSess
import Free5gc.Upf.Pfcp.RuleView
import Free5gc.Upf.Pfcp.TxMatching
import Free5gc.Upf.Pfcp.RxOnce
import Free5gc.Upf.Gtpv1.Msg
import Free5gc.Smf.Pool.Reuse
import Free5gc.Smf.Session.Addresses
import Free5gc.Smf.Session.Refs
import Free5gc.Smf.Session.Counting
import Free5gc.Smf.Charging.Gather
import Free5gc.Smf.Charging.Update
import Free5gc.Smf.Charging.Rules
import Free5gc.Smf.Session.DataPath
import Free5gc.Smf.Upi.DefaultPath
import Free5gc.Smf.Upi.AnchorSelection
import Free5gc.Smf.Routing.AnchorUPFs
import Free5gc.Smf.Routing.BranchingPoint
import Free5gc.Smf.Util.QosConvert
import Free5gc.Chf.Charging.Balance
import Free5gc.Chf.Charging.Tariff
import Free5gc.Chf.Asn.Robust
import Free5gc.Chf.Asn.Embedded
import Free5gc.Chf.Asn.HeaderBytes
import Free5gc.Chf.Cdr.Sessions
import Free5gc.Chf.Cdr.PartialRecords
import Free5gc.Chf.Cdr.TimeStamps
import Free5gc.Amf.Nas.Replay
import Free5gc.Amf.Context.Timer
import Free5gc.Amf.Gmm.ContextTransfer
import Free5gc.N3iwf.AmfSelection
import Free5gc.Tngf.Ike.RoundTrip
import Free5gc.Tngf.Radius.Handler
import Free5gc.Tngf.Radius.Mppe
import Free5gc.Udm.Suci
import Free5gc.Ausf.Confirmations
import Free5gc.Ausf.EapPackets
