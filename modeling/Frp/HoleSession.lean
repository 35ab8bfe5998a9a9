import Frp.History
import Frp.NatAnalyzer

/-!
# The two sides of a hole-punching session

One session of `pkg/nathole/controller.go`: `HandleVisitor` from where it has inserted the
session, and calls of `HandleClient` with the same id, which hold no lock. `HandleVisitor`
reads `clientMsg` twice, and `clientTransporter` when it sends the response. `clientMsg` is the
number of a call.
-/

namespace Frp

structure HoleVisit where
  sid : Nat
  visitorMsg : NatHoleVisitorMsg
  visitorTransporter : Nat

structure HoleClientCall where
  msg : NatHoleClientMsg
  transporter : Nat

inductive HoleClientPc
  | found
  | wroteMsg
  | wroteTransporter
  | returned
  deriving DecidableEq

/-- A response to the client, with the two messages it was made from. -/
structure HoleReply where
  analysed : Nat
  reread : Nat
  resp : NatHoleAnswer

inductive HoleVisitPc
  | inserted
  | waiting
  | woken
  | classified (cm : Nat) (c v : NatFeature)
  | unclassified (cm : Nat) (err : Str)
  | keyed (cm reread : Nat) (c v : NatFeature)
  | asked (cm reread : Nat) (c v : NatFeature) (call : Nat)
  | responding (vResp : NatHoleAnswer) (reply : HoleReply)
  | left

inductive HoleSessionMoment
  | wroteMsg (k : Nat)
  | wroteTransporter (k : Nat)
  | analysed
  | reread
  | asked (key : Str) (call : Nat)
  | sent
  deriving DecidableEq

/-- `log` is latest first; `notified` is the one slot of `notifyCh`. -/
structure HoleSession where
  world : AnalyzerWorld
  calls : List HoleClientCall := []
  pcs : Nat → HoleClientPc := fun _ => .found
  clientMsg : Option Nat := none
  clientTransporter : Option Nat := none
  notified : Bool := false
  analysisKey : Str := []
  visit : HoleVisitPc := .inserted
  visitorSent : Option (Nat × NatHoleAnswer) := none
  clientSent : Option (Nat × HoleReply) := none
  log : List HoleSessionMoment := []

inductive HoleSessionActor
  | visitor
  | client (k : Nat)
  | analyzer
  deriving DecidableEq

namespace HoleSession

def setPc (s : HoleSession) (k : Nat) (pc : HoleClientPc) : HoleSession := { s with pcs := Function.update s.pcs k pc }

def refuse (s : HoleSession) (v : HoleVisit) (cm reread : Nat) (transactionID err : Str) : HoleSession :=
  { s with
    visit := .responding (genNatHoleResponse v.visitorMsg.transactionID err)
      ⟨cm, reread, genNatHoleResponse transactionID err⟩
    log := .reread :: s.log }

def respond (s : HoleSession) (v : HoleVisit) (k reread : Nat) (cm : NatHoleClientMsg) (c f : NatFeature)
    (x : Recommandation) : HoleSession :=
  let resps := natHoleResponses v.sid cm v.visitorMsg c f x
  { s with visit := .responding resps.1 ⟨k, reread, resps.2⟩ }

end HoleSession

section
variable [Md5] [NetErrors]

inductive HoleSessionStep (v : HoleVisit) : HoleSession → HoleSessionActor → HoleSession → Prop
  -- a call of this session, of another one, of `HandleReport` or of `CleanWorker`
  | analyzer {s e w} : AnalyzerStep s.world e w → HoleSessionStep v s .analyzer { s with world := w }
  | found {s} (m : NatHoleClientMsg) (transporter : Nat) : m.sid = v.sid → s.visit ≠ .left →
      HoleSessionStep v s (.client s.calls.length) { s with calls := s.calls ++ [⟨m, transporter⟩] }
  | noSession {s} (m : NatHoleClientMsg) (transporter : Nat) : m.sid = v.sid → s.visit = .left →
      HoleSessionStep v s (.client s.calls.length)
        { s.setPc s.calls.length .returned with calls := s.calls ++ [⟨m, transporter⟩] }
  | writeMsg {s k} : k < s.calls.length → s.pcs k = .found →
      HoleSessionStep v s (.client k)
        { s.setPc k .wroteMsg with clientMsg := some k, log := .wroteMsg k :: s.log }
  | writeTransporter {s k call} : s.calls[k]? = some call → s.pcs k = .wroteMsg →
      HoleSessionStep v s (.client k)
        { s.setPc k .wroteTransporter with
          clientTransporter := some call.transporter, log := .wroteTransporter k :: s.log }
  | notify {s k} : s.pcs k = .wroteTransporter →
      HoleSessionStep v s (.client k) { s.setPc k .returned with notified := true }
  | handOver {s} : s.visit = .inserted → HoleSessionStep v s .visitor { s with visit := .waiting }
  | timeout {s} : s.visit = .waiting → HoleSessionStep v s .visitor { s with visit := .left }
  | wake {s} : s.visit = .waiting → s.notified = true →
      HoleSessionStep v s .visitor { s with visit := .woken, notified := false }
  | classify {s k call c f} : s.visit = .woken → s.clientMsg = some k → s.calls[k]? = some call →
      analysisFeatures call.msg v.visitorMsg = .ok (c, f) →
      HoleSessionStep v s .visitor { s with visit := .classified k c f, log := .analysed :: s.log }
  | unclassified {s k call err} : s.visit = .woken → s.clientMsg = some k → s.calls[k]? = some call →
      analysisFeatures call.msg v.visitorMsg = .error err →
      HoleSessionStep v s .visitor { s with visit := .unclassified k err, log := .analysed :: s.log }
  | refuse {s cm err k call} : s.visit = .unclassified cm err → s.clientMsg = some k → s.calls[k]? = some call →
      HoleSessionStep v s .visitor (s.refuse v cm k call.msg.transactionID err)
  | genAnalysisKey {s cm c f k call} : s.visit = .classified cm c f → s.clientMsg = some k → s.calls[k]? = some call →
      HoleSessionStep v s .visitor
        { s with
          analysisKey := genAnalysisKey v.visitorMsg.mappedAddrs f call.msg.mappedAddrs c
          visit := .keyed cm k c f
          log := .reread :: s.log }
  | ask {s cm reread c f w} (now : Int) : s.visit = .keyed cm reread c f →
      AnalyzerStep s.world (.find s.analysisKey c f now) w →
      HoleSessionStep v s .visitor
        { s with
          world := w
          visit := .asked cm reread c f s.world.calls.length
          log := .asked s.analysisKey s.world.calls.length :: s.log }
  | respond {s cm reread c f j rc x call} : s.visit = .asked cm reread c f j → s.world.calls[j]? = some rc →
      rc.result = some x → s.calls[cm]? = some call →
      HoleSessionStep v s .visitor (s.respond v cm reread call.msg c f x)
  | sendVisitor {s vResp reply} : s.visit = .responding vResp reply → s.visitorSent = none →
      HoleSessionStep v s .visitor { s with visitorSent := some (v.visitorTransporter, vResp) }
  | sendClient {s vResp reply t} : s.visit = .responding vResp reply → s.clientSent = none →
      s.clientTransporter = some t →
      HoleSessionStep v s .visitor { s with clientSent := some (t, reply), log := .sent :: s.log }
  | leave {s vResp reply} : s.visit = .responding vResp reply → s.visitorSent ≠ none → s.clientSent ≠ none →
      HoleSessionStep v s .visitor { s with visit := .left }

namespace HoleSession

def Reachable (v : HoleVisit) : HoleSession → Prop :=
  Reach (fun s => ∃ w : AnalyzerWorld, w.Reachable ∧ s = { world := w }) (HoleSessionStep v)

def Answers (v : HoleVisit) (s : HoleSession) (a b : NatHoleClientMsg) (resp : NatHoleAnswer) : Prop :=
  (∃ err, analysisFeatures a v.visitorMsg = .error err ∧ resp = genNatHoleResponse b.transactionID err) ∨
  ∃ c f j call x, analysisFeatures a v.visitorMsg = .ok (c, f) ∧
    .asked (genAnalysisKey v.visitorMsg.mappedAddrs f b.mappedAddrs c) j ∈ s.log ∧
    s.world.calls[j]? = some call ∧ call.c = c ∧ call.v = f ∧ call.result = some x ∧
    resp = (natHoleResponses v.sid a v.visitorMsg c f x).2

def SameClient (v : HoleVisit) (s : HoleSession) (transporter : Nat) (reply : HoleReply) : Prop :=
  ∃ k call, s.calls[k]? = some call ∧ reply.analysed = k ∧ reply.reread = k ∧
    s.Answers v call.msg call.msg reply.resp ∧ transporter = call.transporter

end HoleSession

end

namespace HoleSessionMoment

def msgWriter : HoleSessionMoment → Option Nat
  | .wroteMsg k => some k
  | _ => none

def transporterWriter : HoleSessionMoment → Option Nat
  | .wroteTransporter k => some k
  | _ => none

end HoleSessionMoment

open HoleSessionMoment

/-- The call whose message was in the session when `analysis` began, when it was read again, and
whose transporter was there when the response was sent. -/
def analysedFrom (log : List HoleSessionMoment) : Option Nat := lastBefore .analysed msgWriter log

def rereadFrom (log : List HoleSessionMoment) : Option Nat := lastBefore .reread msgWriter log

def sentOn (log : List HoleSessionMoment) : Option Nat := lastBefore .sent transporterWriter log

def HoleSession.OneClient (s : HoleSession) : Prop :=
  ∃ k d call call', s.calls[k]? = some call ∧ s.calls[d]? = some call' ∧
    analysedFrom s.log = some k ∧ rereadFrom s.log = some k ∧ sentOn s.log = some d ∧
    call'.transporter = call.transporter

end Frp
