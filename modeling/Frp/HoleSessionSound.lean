import Frp.HoleSession
import Frp.NatAnalyzerSound
import Frp.NatHoleSound

/-!
# The response goes to the client that was analysed

The response goes to the client it was made for exactly if the message was the same at both
reads, and the transporter at the end is the one it came in on.
-/

namespace Frp

open HoleSessionMoment

/-! ## What was read -/

theorem analysedFrom_reread (log : List HoleSessionMoment) : analysedFrom (.reread :: log) = analysedFrom log := by
  exact lastBefore_cons (by decide) _ _

attribute [local simp] transporterWriter msgWriter

namespace HoleSession

variable [Md5] [NetErrors] {v : HoleVisit} {s t : HoleSession}

structure Keeps (s t : HoleSession) : Prop where
  calls : ∀ {k : Nat} {call}, s.calls[k]? = some call → t.calls[k]? = some call
  log : ∀ m ∈ s.log, m ∈ t.log
  world : s.world.KeepsCalls t.world
  analysed : analysedFrom t.log = analysedFrom s.log
  reread : rereadFrom t.log = rereadFrom s.log

theorem Answers.keep (hk : Keeps s t) {a b : NatHoleClientMsg} {resp : NatHoleAnswer} (h : s.Answers v a b resp) :
    t.Answers v a b resp := by
  cases h with
  | inl herr => exact .inl herr
  | inr hok =>
    obtain ⟨c, f, j, call, x, hfeat, hlog, hj, hc, hv, hx, hresp⟩ := hok
    obtain ⟨call', hj', hc', hv', hx'⟩ := hk.world _ _ hj
    exact .inr ⟨c, f, j, call', x, hfeat, hk.log _ hlog, hj', hc'.trans hc, hv'.trans hv, hx' x hx, hresp⟩

def Classified (v : HoleVisit) (s : HoleSession) (a : Nat) (res : Except Str (NatFeature × NatFeature)) : Prop :=
  analysedFrom s.log = some a ∧ ∃ call, s.calls[a]? = some call ∧ analysisFeatures call.msg v.visitorMsg = res

def Keyed (v : HoleVisit) (s : HoleSession) (b : Nat) (c f : NatFeature) (key : Str) : Prop :=
  rereadFrom s.log = some b ∧
    ∃ call, s.calls[b]? = some call ∧ key = genAnalysisKey v.visitorMsg.mappedAddrs f call.msg.mappedAddrs c

def ReplyOk (v : HoleVisit) (s : HoleSession) (reply : HoleReply) : Prop :=
  analysedFrom s.log = some reply.analysed ∧ rereadFrom s.log = some reply.reread ∧
    ∃ a b, s.calls[reply.analysed]? = some a ∧ s.calls[reply.reread]? = some b ∧ s.Answers v a.msg b.msg reply.resp

def VisitOk (v : HoleVisit) (s : HoleSession) : HoleVisitPc → Prop
  | .inserted | .waiting | .woken => s.clientSent = none
  | .classified a c f => s.clientSent = none ∧ s.Classified v a (.ok (c, f))
  | .unclassified a err => s.clientSent = none ∧ s.Classified v a (.error err)
  | .keyed a b c f => s.clientSent = none ∧ s.Classified v a (.ok (c, f)) ∧ s.Keyed v b c f s.analysisKey
  | .asked a b c f j => s.clientSent = none ∧ s.Classified v a (.ok (c, f)) ∧
      (∃ key, s.Keyed v b c f key ∧ .asked key j ∈ s.log) ∧
      ∃ call, s.world.calls[j]? = some call ∧ call.c = c ∧ call.v = f
  | .responding _ reply => s.ReplyOk v reply
  | .left => True

def SentOk (v : HoleVisit) (s : HoleSession) : Prop :=
  ∀ x reply, s.clientSent = some (x, reply) →
    s.ReplyOk v reply ∧ ∃ d call, sentOn s.log = some d ∧ s.calls[d]? = some call ∧ call.transporter = x

structure FieldsOk (s : HoleSession) : Prop where
  msg : s.clientMsg = s.log.findSome? msgWriter
  transporter : ∀ x, s.clientTransporter = some x →
    ∃ d call, s.log.findSome? transporterWriter = some d ∧ s.calls[d]? = some call ∧ call.transporter = x

structure Inv (v : HoleVisit) (s : HoleSession) : Prop where
  fields : s.FieldsOk
  visit : s.VisitOk v s.visit
  sent : s.SentOk v

omit [Md5] in
theorem Classified.keep (hk : Keeps s t) {a : Nat} {res} (h : s.Classified v a res) : t.Classified v a res := by
  obtain ⟨hfrom, call, hcall, hres⟩ := h
  exact ⟨hk.analysed.trans hfrom, call, hk.calls hcall, hres⟩

omit [NetErrors] in
theorem Keyed.keep (hk : Keeps s t) {b : Nat} {c f : NatFeature} {key : Str} (h : s.Keyed v b c f key) :
    t.Keyed v b c f key := by
  obtain ⟨hfrom, call, hcall, hkey⟩ := h
  exact ⟨hk.reread.trans hfrom, call, hk.calls hcall, hkey⟩

theorem ReplyOk.keep (hk : Keeps s t) {reply : HoleReply} (h : s.ReplyOk v reply) : t.ReplyOk v reply := by
  obtain ⟨ha, hb, a, b, hca, hcb, hans⟩ := h
  exact ⟨hk.analysed.trans ha, hk.reread.trans hb, a, b, hk.calls hca, hk.calls hcb, hans.keep hk⟩

theorem SentOk.keep (hk : Keeps s t) (hsent : t.clientSent = s.clientSent) (hon : sentOn t.log = sentOn s.log)
    (h : s.SentOk v) : t.SentOk v := by
  intro x reply hx
  obtain ⟨hreply, d, call, hd, hcall, heq⟩ := h x reply (hsent.symm.trans hx)
  exact ⟨hreply.keep hk, d, call, hon.trans hd, hk.calls hcall, heq⟩

theorem VisitOk.keep (hk : Keeps s t) (hsent : t.clientSent = s.clientSent) (hkey : t.analysisKey = s.analysisKey)
    {pc : HoleVisitPc} (h : s.VisitOk v pc) : t.VisitOk v pc := by
  cases pc with
  | inserted | waiting | woken => exact hsent.trans h
  | classified | unclassified => exact ⟨hsent.trans h.1, h.2.keep hk⟩
  | keyed => exact ⟨hsent.trans h.1, h.2.1.keep hk, hkey ▸ h.2.2.keep hk⟩
  | asked =>
    obtain ⟨hnone, hclass, ⟨key, hkeyed, hlog⟩, call, hj, hc, hf⟩ := h
    obtain ⟨call', hj', hc', hf', -⟩ := hk.world _ _ hj
    exact ⟨hsent.trans hnone, hclass.keep hk, ⟨key, hkeyed.keep hk, hk.log _ hlog⟩, call', hj', hc'.trans hc,
      hf'.trans hf⟩
  | responding => exact ReplyOk.keep hk h
  | left => trivial

theorem SentOk.of_none (h : s.clientSent = none) : s.SentOk v := by
  intro x reply hx
  rw [h] at hx; cases hx

/-! ## One step -/

section
omit [Md5] [NetErrors]

theorem Keeps.of_log (hlog : t.log = s.log) (hcalls : s.calls <+: t.calls)
    (hworld : s.world.KeepsCalls t.world) : Keeps s t where
  calls := fun hk => by
    obtain ⟨rest, heq⟩ := hcalls
    rw [← heq, List.getElem?_append_left (List.getElem?_eq_some_iff.mp hk).1]; exact hk
  log := fun _ hm => hlog ▸ hm
  world := hworld
  analysed := by rw [hlog]
  reread := by rw [hlog]

variable {m : HoleSessionMoment}

theorem Keeps.push (hlog : t.log = m :: s.log) (ha : m ≠ .analysed) (hr : m ≠ .reread)
    (hcalls : t.calls = s.calls) (hworld : s.world.KeepsCalls t.world) : Keeps s t where
  calls := fun hk => hcalls ▸ hk
  log := fun _ hm => hlog ▸ List.mem_cons_of_mem _ hm
  world := hworld
  analysed := hlog ▸ lastBefore_cons ha _ _
  reread := hlog ▸ lastBefore_cons hr _ _

theorem FieldsOk.of_log (h : s.FieldsOk) (hlog : t.log = s.log) (hmsg : t.clientMsg = s.clientMsg)
    (htr : t.clientTransporter = s.clientTransporter) (hk : Keeps s t) : t.FieldsOk := by
  refine ⟨by rw [hmsg, hlog, h.msg], fun x hx => ?_⟩
  obtain ⟨d, call, hd, hcall, heq⟩ := h.transporter x (htr.symm.trans hx)
  exact ⟨d, call, by rw [hlog, hd], hk.calls hcall, heq⟩

theorem FieldsOk.push (h : s.FieldsOk) (hlog : t.log = m :: s.log) (hm : msgWriter m = none)
    (ht : transporterWriter m = none) (hmsg : t.clientMsg = s.clientMsg)
    (htr : t.clientTransporter = s.clientTransporter) (hcalls : t.calls = s.calls) : t.FieldsOk := by
  refine ⟨by rw [hmsg, hlog, List.findSome?_cons, hm, h.msg], fun x hx => ?_⟩
  obtain ⟨d, call, hd, hcall, heq⟩ := h.transporter x (htr.symm.trans hx)
  exact ⟨d, call, by rw [hlog, List.findSome?_cons, ht, hd], hcalls ▸ hcall, heq⟩

end

theorem Inv.write (h : s.Inv v) {m : HoleSessionMoment} (hlog : t.log = m :: s.log) (ha : m ≠ .analysed)
    (hr : m ≠ .reread) (hs : m ≠ .sent) (hcalls : t.calls = s.calls) (hworld : t.world = s.world)
    (hsent : t.clientSent = s.clientSent) (hkey : t.analysisKey = s.analysisKey) (hvisit : t.visit = s.visit)
    (hf : t.FieldsOk) : t.Inv v := by
  have hk : Keeps s t := .push hlog ha hr hcalls (hworld ▸ .refl _)
  exact ⟨hf, hvisit ▸ h.visit.keep hk hsent hkey, h.sent.keep hk hsent (hlog ▸ lastBefore_cons hs _ _)⟩

theorem Inv.quiet (h : s.Inv v) (hlog : t.log = s.log) (hcalls : s.calls <+: t.calls)
    (hworld : s.world.KeepsCalls t.world) (hsent : t.clientSent = s.clientSent) (hmsg : t.clientMsg = s.clientMsg)
    (htr : t.clientTransporter = s.clientTransporter) (hkey : t.analysisKey = s.analysisKey)
    (hvisit : s.VisitOk v t.visit) : t.Inv v := by
  have hk : Keeps s t := .of_log hlog hcalls hworld
  exact ⟨h.fields.of_log hlog hmsg htr hk, hvisit.keep hk hsent hkey, h.sent.keep hk hsent (by rw [hlog])⟩

theorem Inv.client (h : s.Inv v) {k : Nat} (hs : HoleSessionStep v s (.client k) t) : t.Inv v := by
  cases hs with
  | found | noSession => exact h.quiet rfl (List.prefix_append _ _) (.refl _) rfl rfl rfl rfl h.visit
  | notify => exact h.quiet rfl List.prefix_rfl (.refl _) rfl rfl rfl rfl h.visit
  | writeMsg =>
    refine h.write rfl nofun nofun nofun rfl rfl rfl rfl rfl ⟨?_, ?_⟩
    · simp [List.findSome?_cons]
    · intro x hx
      obtain ⟨d, call, hd, hcall⟩ := h.fields.transporter x hx
      exact ⟨d, call, by simp [List.findSome?_cons, hd], hcall⟩
  | @writeTransporter _ call hcall =>
    refine h.write rfl nofun nofun nofun rfl rfl rfl rfl rfl ⟨?_, ?_⟩
    · simpa [List.findSome?_cons, setPc] using h.fields.msg
    · intro x hx; exact ⟨k, call, by simp [List.findSome?_cons], hcall, Option.some.inj hx⟩

omit [Md5] [NetErrors] in
theorem FieldsOk.last (h : s.FieldsOk) {k : Nat} (hk : s.clientMsg = some k) : s.log.findSome? msgWriter = some k :=
  h.msg.symm.trans hk

theorem Inv.sendClient (h : s.Inv v) {vResp : NatHoleAnswer} {reply : HoleReply} {x : Nat}
    (hpc : s.visit = .responding vResp reply) (htr : s.clientTransporter = some x) :
    Inv v { s with clientSent := some (x, reply), log := .sent :: s.log } := by
  have hk : Keeps s { s with clientSent := some (x, reply), log := .sent :: s.log } :=
    .push rfl nofun nofun rfl (.refl _)
  have hvisit := h.visit
  rw [hpc] at hvisit
  have hreply := ReplyOk.keep hk hvisit
  refine ⟨h.fields.push rfl rfl rfl rfl rfl rfl, ?_, fun y r hr => ?_⟩
  · rw [hpc]; exact hreply
  · cases hr
    obtain ⟨d, call, hd, hcall, heq⟩ := h.fields.transporter x htr
    exact ⟨hreply, d, call, (lastBefore_self rfl _).trans hd, hcall, heq⟩

theorem Inv.visitor (h : s.Inv v) (hs : HoleSessionStep v s .visitor t) : t.Inv v := by
  have hvisit := h.visit
  cases hs with
  | handOver hpc | wake hpc =>
    rw [hpc] at hvisit; exact h.quiet rfl List.prefix_rfl (.refl _) rfl rfl rfl rfl hvisit
  | timeout | leave => exact h.quiet rfl List.prefix_rfl (.refl _) rfl rfl rfl rfl trivial
  | sendVisitor => exact h.quiet rfl List.prefix_rfl (.refl _) rfl rfl rfl rfl hvisit
  | classify hpc hk hcall hf | unclassified hpc hk hcall hf =>
    rw [hpc] at hvisit
    refine ⟨h.fields.push rfl rfl rfl rfl rfl rfl, ⟨hvisit, ?_, _, hcall, hf⟩, .of_none hvisit⟩
    exact (lastBefore_self rfl _).trans (h.fields.last hk)
  | refuse hpc hk hcall =>
    rw [hpc] at hvisit
    obtain ⟨hnone, hfrom, call, ha, hf⟩ := hvisit
    refine ⟨h.fields.push rfl rfl rfl rfl rfl rfl, ⟨?_, ?_, call, _, ha, hcall, .inl ⟨_, hf, rfl⟩⟩, .of_none hnone⟩
    · exact (analysedFrom_reread _).trans hfrom
    · exact (lastBefore_self rfl _).trans (h.fields.last hk)
  | genAnalysisKey hpc hk hcall =>
    rw [hpc] at hvisit
    obtain ⟨hnone, hfrom, hclass⟩ := hvisit
    refine ⟨h.fields.push rfl rfl rfl rfl rfl rfl, ⟨hnone, ⟨?_, hclass⟩, ?_, _, hcall, rfl⟩, .of_none hnone⟩
    · exact (analysedFrom_reread _).trans hfrom
    · exact (lastBefore_self rfl _).trans (h.fields.last hk)
  | ask now hpc hstep =>
    rw [hpc] at hvisit
    obtain ⟨hnone, hclass, hkeyed⟩ := hvisit
    refine ⟨h.fields.push rfl rfl rfl rfl rfl rfl, ⟨hnone, hclass.keep ?_, ⟨_, hkeyed.keep ?_, List.mem_cons_self⟩,
      AnalyzerWorld.find_call hstep⟩, .of_none hnone⟩ <;>
      exact .push rfl nofun nofun rfl (.step hstep)
  | respond hpc hj hx hcall =>
    rw [hpc] at hvisit
    obtain ⟨hnone, ⟨hfrom, call, ha, hf⟩, ⟨key, ⟨hreread, call', hb, hkey⟩, hlog⟩, rc, hrc, hc, hv⟩ := hvisit
    cases Option.some.inj (hj.symm.trans hrc)
    cases Option.some.inj (hcall.symm.trans ha)
    refine h.quiet rfl List.prefix_rfl (.refl _) rfl rfl rfl rfl ⟨hfrom, hreread, _, call', ha, hb, .inr ?_⟩
    exact ⟨_, _, _, _, _, hf, hkey ▸ hlog, hj, hc, hv, hx, rfl⟩
  | sendClient hpc hnone htr => exact h.sendClient hpc htr

theorem Inv.init (w : AnalyzerWorld) : Inv v { world := w } := by
  refine ⟨⟨rfl, fun x hx => ?_⟩, rfl, .of_none rfl⟩
  cases hx

theorem Inv.step (h : s.Inv v) {e : HoleSessionActor} (hs : HoleSessionStep v s e t) : t.Inv v := by
  cases e with
  | visitor => exact h.visitor hs
  | client => exact h.client hs
  | analyzer =>
    cases hs with
    | analyzer hstep => exact h.quiet rfl List.prefix_rfl (.step hstep) rfl rfl rfl rfl h.visit

theorem Reachable.inv (h : s.Reachable v) : s.Inv v := by
  refine Reach.invariant (fun s hs => ?_) (fun _ _ _ _ hi hs => hi.step hs) h
  obtain ⟨w, -, rfl⟩ := hs
  exact .init w

/-! ## `HandleVisitor` is never without a message -/

def Filled (s : HoleSession) : Prop := s.clientMsg ≠ none ∧ s.clientTransporter ≠ none

def Woken (s : HoleSession) : Prop :=
  match s.visit with
  | .inserted | .waiting | .left => False
  | _ => True

structure Stored (s : HoleSession) : Prop where
  world : s.world.Reachable
  called : ∀ k, s.clientMsg = some k → k < s.calls.length
  wroteMsg : ∀ k, s.pcs k = .wroteMsg → s.clientMsg ≠ none
  wroteTransporter : ∀ k, s.pcs k = .wroteTransporter → s.Filled
  notified : s.notified = true → s.Filled
  woken : s.Woken → s.Filled

section
omit [Md5] [NetErrors]

theorem Stored.setPc (h : s.Stored) {k : Nat} {pc : HoleClientPc} (hm : pc = .wroteMsg → s.clientMsg ≠ none)
    (ht : pc = .wroteTransporter → s.Filled) : (s.setPc k pc).Stored := by
  refine ⟨h.world, h.called, fun j hj => ?_, fun j hj => ?_, h.notified, h.woken⟩
  · rcases update_cases (· = HoleClientPc.wroteMsg) hj with hnew | hold
    · exact hm hnew.2
    · exact h.wroteMsg j hold.2
  · rcases update_cases (· = HoleClientPc.wroteTransporter) hj with hnew | hold
    · exact ht hnew.2
    · exact h.wroteTransporter j hold.2

theorem Stored.mono (h : s.Stored) (hpcs : t.pcs = s.pcs) (hworld : t.world.Reachable)
    (hcalled : ∀ k, t.clientMsg = some k → k < t.calls.length) (hm : s.clientMsg ≠ none → t.clientMsg ≠ none)
    (ht : s.clientTransporter ≠ none → t.clientTransporter ≠ none) (hn : t.notified = true → t.Filled)
    (hw : t.Woken → t.Filled) : t.Stored :=
  ⟨hworld, hcalled, fun k hk => hm (h.wroteMsg k (hpcs ▸ hk)),
    fun k hk => ⟨hm (h.wroteTransporter k (hpcs ▸ hk)).1, ht (h.wroteTransporter k (hpcs ▸ hk)).2⟩, hn, hw⟩

end

theorem Stored.client (h : s.Stored) {k : Nat} (hs : HoleSessionStep v s (.client k) t) : t.Stored := by
  have hgrow : ∀ call, ({ s with calls := s.calls ++ [call] } : HoleSession).Stored := by
    intro call
    refine h.mono rfl h.world (fun j hj => ?_) id id h.notified h.woken
    rw [List.length_append]; exact Nat.lt_add_right _ (h.called j hj)
  cases hs with
  | found => exact hgrow _
  | noSession => exact (hgrow _).setPc nofun nofun
  | writeMsg hlt =>
    have hset : ({ s with clientMsg := some k, log := .wroteMsg k :: s.log } : HoleSession).Stored := by
      refine h.mono rfl h.world (fun j hj => Option.some.inj hj ▸ hlt) (fun _ => nofun) id (fun hn => ?_) fun hw => ?_
      · exact ⟨nofun, (h.notified hn).2⟩
      · exact ⟨nofun, (h.woken hw).2⟩
    exact hset.setPc (fun _ => nofun) nofun
  | @writeTransporter _ call hcall hpc =>
    have hset : ({ s with clientTransporter := some call.transporter, log := .wroteTransporter k :: s.log } :
        HoleSession).Stored := by
      refine h.mono rfl h.world h.called id (fun _ => nofun) (fun hn => ?_) fun hw => ?_
      · exact ⟨(h.notified hn).1, nofun⟩
      · exact ⟨(h.woken hw).1, nofun⟩
    exact hset.setPc nofun fun _ => ⟨h.wroteMsg k hpc, nofun⟩
  | notify hpc =>
    have hset : ({ s with notified := true } : HoleSession).Stored :=
      h.mono rfl h.world h.called id id (fun _ => h.wroteTransporter k hpc) h.woken
    exact hset.setPc nofun nofun

theorem Stored.visitor (h : s.Stored) (hs : HoleSessionStep v s .visitor t) : t.Stored := by
  cases hs with
  | handOver | timeout | leave => exact h.mono rfl h.world h.called id id h.notified False.elim
  | wake hpc hn => exact h.mono rfl h.world h.called id id nofun fun _ => h.notified hn
  | classify hpc | unclassified hpc | refuse hpc | genAnalysisKey hpc | respond hpc =>
    exact h.mono rfl h.world h.called id id h.notified fun _ => h.woken (by rw [Woken, hpc]; trivial)
  | ask now hpc hstep =>
    exact h.mono rfl (h.world.next hstep) h.called id id h.notified fun _ => h.woken (by rw [Woken, hpc]; trivial)
  | sendVisitor | sendClient => exact h.mono rfl h.world h.called id id h.notified h.woken

theorem Reachable.stored (h : s.Reachable v) : s.Stored := by
  refine Reach.invariant (fun s hs => ?_) (fun s e t _ hi hs => ?_) h
  · obtain ⟨w, hw, rfl⟩ := hs
    exact ⟨hw, nofun, nofun, nofun, nofun, False.elim⟩
  · cases e with
    | visitor => exact hi.visitor hs
    | client => exact hi.client hs
    | analyzer =>
      cases hs with
      | analyzer hstep => exact hi.mono rfl (hi.world.next hstep) hi.called id id hi.notified hi.woken

/-- Once woken, `HandleVisitor` finds all it reads: only the analyzer can keep it, and that never stops. -/
theorem Reachable.visitor_moves (h : s.Reachable v) (hw : s.Woken) :
    (∃ t, HoleSessionStep v s .visitor t) ∨
      ∃ cm b c f j, s.visit = .asked cm b c f j ∧ ∀ now, ∃ w, AnalyzerStep s.world (.recommand j now) w := by
  have hvisit := h.inv.visit
  obtain ⟨hm, ht⟩ := h.stored.woken hw
  obtain ⟨k, hk⟩ := Option.ne_none_iff_exists'.mp hm
  obtain ⟨x, hx⟩ := Option.ne_none_iff_exists'.mp ht
  obtain ⟨call, hcall⟩ : ∃ call, s.calls[k]? = some call := ⟨_, List.getElem?_eq_getElem (h.stored.called k hk)⟩
  cases hpc : s.visit with
  | inserted | waiting | left => rw [Woken, hpc] at hw; exact hw.elim
  | woken =>
    cases hf : analysisFeatures call.msg v.visitorMsg with
    | error => exact .inl ⟨_, .unclassified hpc hk hcall hf⟩
    | ok => exact .inl ⟨_, .classify hpc hk hcall hf⟩
  | classified => exact .inl ⟨_, .genAnalysisKey hpc hk hcall⟩
  | unclassified => exact .inl ⟨_, .refuse hpc hk hcall⟩
  | keyed => exact .inl ⟨_, .ask 0 hpc (.find _ _ _ _ _)⟩
  | asked cm b c f j =>
    rw [hpc] at hvisit
    obtain ⟨-, ⟨-, _, hcm, -⟩, -, rc, hj, -⟩ := hvisit
    cases hr : rc.result with
    | none => exact .inr ⟨cm, b, c, f, j, rfl, h.stored.world.inv.recommand_enabled hj hr⟩
    | some => exact .inl ⟨_, .respond hpc hj hr hcm⟩
  | responding =>
    by_cases hv : s.visitorSent = none
    · exact .inl ⟨_, .sendVisitor hpc hv⟩
    · by_cases hc : s.clientSent = none
      · exact .inl ⟨_, .sendClient hpc hc hx⟩
      · exact .inl ⟨_, .leave hpc hv hc⟩

end HoleSession

section
variable [Md5] [NetErrors] {v : HoleVisit} {s : HoleSession}

/-- The response goes to the client it was computed for if and only if one call has written the
message for both reads, and the transporter is that of the same client. -/
theorem client_response_iff (h : s.Reachable v) {x : Nat} {reply : HoleReply} (hsent : s.clientSent = some (x, reply)) :
    s.SameClient v x reply ↔ s.OneClient := by
  obtain ⟨⟨ha, hb, a, b, hca, hcb, hans⟩, d, call, hd, hcall, hx⟩ := h.inv.sent x reply hsent
  constructor
  · rintro ⟨k, own, hown, hka, hkb, -, heq⟩
    exact ⟨k, d, own, call, hown, hcall, hka ▸ ha, hkb ▸ hb, hd, hx.trans heq⟩
  · rintro ⟨k, d', own, other, hown, hother, hka, hkb, hkd, heq⟩
    have hak : reply.analysed = k := Option.some.inj (ha.symm.trans hka)
    have hbk : reply.reread = k := Option.some.inj (hb.symm.trans hkb)
    have hdd : d = d' := Option.some.inj (hd.symm.trans hkd)
    subst hdd
    rw [hak, hown] at hca
    rw [hbk, hown] at hcb; cases hca
    cases hcb
    rw [hother] at hcall; cases hcall
    exact ⟨k, _, hown, hak, hbk, hans, hx.symm.trans heq⟩

end

attribute [local instance] Md5.plain NetErrors.plain

def easyVisit : HoleVisit where
  sid := 0
  visitorMsg :=
    { transactionID := lit "v", proxyName := lit "p", preCheck := false, signKey := [], timestamp := 0
      protocol := lit "quic", mappedAddrs := [lit "1.1.1.1:80", lit "1.1.1.1:80"], assistedAddrs := []
      quicFingerprint := [] }
  visitorTransporter := 9

def easyClient (transactionID : Str) : NatHoleClientMsg where
  transactionID := transactionID
  sid := 0
  mappedAddrs := [lit "2.2.2.2:80", lit "2.2.2.2:80"]
  assistedAddrs := []
  quicFingerprint := []

attribute [local simp] HoleSession.setPc

theorem exists_responding : ∃ (s : HoleSession) (key : Str) (vResp : NatHoleAnswer) (reply : HoleReply),
    s.Reachable easyVisit ∧ s.calls = [⟨easyClient (lit "a"), 1⟩] ∧
      s.pcs = Function.update (fun _ => .found) 0 .returned ∧ s.clientTransporter = some 1 ∧ s.clientSent = none ∧
      s.log = [.asked key 0, .reread, .analysed, .wroteTransporter 0, .wroteMsg 0] ∧
      s.visit = .responding vResp reply ∧ reply.analysed = 0 ∧ reply.resp.transactionID = lit "a" := by
  have h0 : HoleSession.Reachable easyVisit { world := { analyzer := { dataReserveDuration := 0 } } } :=
    .start ⟨_, .start ⟨0, rfl⟩, rfl⟩
  have h := h0
    |>.next (.handOver rfl)
    |>.next (.found (easyClient (lit "a")) 1 rfl nofun)
    |>.next (.writeMsg (k := 0) (by decide) rfl)
    |>.next (.writeTransporter (k := 0) rfl rfl)
    |>.next (.notify (k := 0) rfl)
    |>.next (.wake rfl rfl)
    |>.next (.classify (c := ⟨.easyNAT, .noChange, 0, false, false⟩)
      (f := ⟨.easyNAT, .noChange, 0, false, false⟩) rfl rfl rfl (by decide))
    |>.next (.genAnalysisKey rfl rfl rfl)
    |>.next (.ask 0 rfl (.find _ _ _ _ _))
    |>.next (.analyzer (.recommand (k := 0) 0 rfl rfl rfl))
    |>.next (.respond rfl rfl rfl rfl)
  refine ⟨_, _, _, _, h, rfl, ?_, rfl, rfl, rfl, rfl, rfl, rfl⟩
  simp [HoleSession.respond]

theorem visitor_moves_responding :
    ∃ s t, HoleSession.Reachable easyVisit s ∧ HoleSessionStep easyVisit s .visitor t := by
  obtain ⟨s, _, _, _, h, -, -, -, -, -, hvisit, -⟩ := exists_responding
  rcases h.visitor_moves (by rw [HoleSession.Woken, hvisit]; trivial) with ⟨t, ht⟩ | ⟨_, _, _, _, _, hasked, -⟩
  · exact ⟨s, t, h, ht⟩
  · cases hvisit.symm.trans hasked

theorem client_response_iff_one_call : ∃ s reply, HoleSession.Reachable easyVisit s ∧ s.clientSent = some (1, reply) ∧
    s.SameClient easyVisit 1 reply := by
  obtain ⟨s, key, vResp, reply, h, hcalls, -, htr, hnone, hlog, hvisit, -⟩ := exists_responding
  have h1 := h.next (.sendClient hvisit hnone htr)
  refine ⟨_, reply, h1, rfl, (client_response_iff h1 rfl).mpr ?_⟩
  refine ⟨0, 0, ⟨easyClient (lit "a"), 1⟩, ⟨easyClient (lit "a"), 1⟩, ?_, ?_, ?_, ?_, ?_, rfl⟩ <;>
    simp [hcalls, hlog, analysedFrom, rereadFrom, sentOn, lastBefore, List.findSome?_cons]

/-- A second client writes its message when the response to the first one has been made: the
response goes to the second one. -/
theorem client_response_misdirected : ∃ s reply, HoleSession.Reachable easyVisit s ∧
    s.calls = [⟨easyClient (lit "a"), 1⟩, ⟨easyClient (lit "b"), 2⟩] ∧ s.clientSent = some (2, reply) ∧
    reply.resp.transactionID = lit "a" ∧ ¬ s.SameClient easyVisit 2 reply := by
  obtain ⟨s, key, vResp, reply, h, hcalls, hpcs, htr, hnone, hlog, hvisit, hfirst, hid⟩ := exists_responding
  have h1 := h.next (.found (easyClient (lit "b")) 2 rfl (by rw [hvisit]; nofun))
  have h2 := h1.next (.writeMsg (k := 1) (by simp [hcalls]) (by simp [hpcs]))
  have hsecond : (s.calls ++ [⟨easyClient (lit "b"), 2⟩])[1]? = some ⟨easyClient (lit "b"), 2⟩ := by simp [hcalls]
  have h3 := h2.next (.writeTransporter hsecond (by simp))
  have h4 := h3.next (.sendClient hvisit hnone rfl)
  refine ⟨_, reply, h4, by simp [hcalls], rfl, hid, ?_⟩
  rintro ⟨k, call, hcall, hk, -, -, hx⟩
  rw [← hk, hfirst] at hcall
  simp [hcalls] at hcall
  rw [← hcall] at hx; cases hx

end Frp
