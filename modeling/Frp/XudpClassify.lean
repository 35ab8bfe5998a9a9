import Frp.Readers
import Frp.Str
import Frp.XudpProxy

/-!
# The role of an XUDP work connection

`classifyXUDPWorkConn` of `client/proxy/xudp.go`. Without a role in `StartWorkConn` it decodes
one message from a buffered reader whose reads are captured, and hands on a connection that
reads them again before the rest. The decoder is any program that reads.
-/

namespace Frp

def xudpWorkConnRoleP2P : Str := lit "p2p"

def xudpWorkConnRoleRelay : Str := lit "relay"

inductive ClassifyError
  | unknownRole (role : Str)
  | setDeadline
  | clearDeadline
  deriving DecidableEq

inductive ProbeMessage
  | natHoleSid (sid nonce : Str)
  | other

def ProbeMessage.role : Option ProbeMessage → XudpRole
  | some (.natHoleSid sid nonce) => if sid ≠ [] ∧ nonce = lit "xudp" then .p2p else .relay
  | some .other | none => .relay

variable {ε : Type}

structure RoutedConn (ε : Type) where
  reader : Reader ε
  state : reader.State

namespace RoutedConn

def ofConn (conn : Source ε) : RoutedConn ε := ⟨Reader.source ε, conn⟩

end RoutedConn

def probeBufSize : Nat := 64 * 1024

def bufReader (ε : Type) : Reader ε := (Reader.source ε).bufio probeBufSize (by decide)

def replay (captured : List UInt8) (state : (bufReader ε).State) : RoutedConn ε :=
  ⟨(Reader.slice ε).multi (bufReader ε), (some captured, some state)⟩

/-- `setOk` and `clearOk` tell whether the deadline could be set and cleared; `none` is an error of the decoder. -/
structure Probe (ε : Type) where
  decode : Reading ε (Option ProbeMessage)
  setOk : Bool
  clearOk : Bool

def classifyLegacyXUDPWorkConn (probe : Probe ε) (conn : Source ε) : Except ClassifyError (XudpRole × RoutedConn ε) :=
  if probe.setOk = false then .error .setDeadline
  else
    let probed := probe.decode.run (bufReader ε).tee (([], conn), [])
    if probe.clearOk = false then .error .clearDeadline
    else .ok (ProbeMessage.role probed.1, replay probed.2.2 probed.2.1)

def classifyXUDPWorkConn (probe : Probe ε) (role : Option Str) (conn : Source ε) :
    Except ClassifyError (XudpRole × RoutedConn ε) :=
  let role := role.getD []
  if role = xudpWorkConnRoleP2P then .ok (.p2p, .ofConn conn)
  else if role = xudpWorkConnRoleRelay then .ok (.relay, .ofConn conn)
  else if role = [] then classifyLegacyXUDPWorkConn probe conn
  else .error (.unknownRole role)

/-! ## What the connection handed on yields -/

/-- Reads give a front part of the stream, then the end; if the connection answers with data from
some read on, they give all of it. -/
structure RoutedConn.Yields (c : RoutedConn ε) (stream : List UInt8) (answers : Nat → SourceAnswer ε) : Prop where
  front : ∀ ns, (c.reader.reads c.state ns).1 <+: stream
  eof : ∀ ns n, (c.reader.read (c.reader.reads c.state ns).2 n).1 = .error .eof → (c.reader.reads c.state ns).1 = stream
  all : ∃ m, (∀ i, m ≤ i → ∃ k, answers i = .data (k + 1)) → ∀ ns, (∀ n ∈ ns, 0 < n) → stream.length ≤ ns.length →
    (c.reader.reads c.state ns).1 = stream

theorem RoutedConn.yields_of {c : RoutedConn ε} {stream : List UInt8} {answers : Nat → SourceAnswer ε}
    (hrem : c.reader.remaining c.state = stream)
    (hlive : ∃ m, (∀ i, m ≤ i → ∃ k, answers i = .data (k + 1)) → c.reader.Live c.state) : c.Yields stream answers := by
  obtain ⟨m, hlive⟩ := hlive
  refine ⟨fun ns => ?_, fun ns n heof => ?_, m, fun hans ns hpos hlen => ?_⟩
  · rw [← hrem, ← c.reader.reads_append ns c.state]; exact List.prefix_append _ _
  · have h := c.reader.law (c.reader.reads c.state ns).2 n
    rw [heof] at h
    cases h with
    | eof h0 =>
      have happ := c.reader.reads_append ns c.state
      rw [h0, List.append_nil, hrem] at happ; exact happ
  · rw [← hrem]; exact c.reader.reads_live ns hpos c.state (hlive hans) (by rw [hrem]; exact hlen)

theorem probe_run (decode : Reading ε (Option ProbeMessage)) (conn : Source ε) :
    (decode.run (bufReader ε).tee (([], conn), [])).2.2 ++
        (bufReader ε).remaining (decode.run (bufReader ε).tee (([], conn), [])).2.1 = conn.rest ∧
      (decode.run (bufReader ε).tee (([], conn), [])).2.1.2.answers = conn.answers := by
  refine decode.run_invariant
    (P := fun s : (bufReader ε).tee.State => s.2 ++ (bufReader ε).remaining s.1 = conn.rest ∧
      s.1.2.answers = conn.answers)
    ?_ ⟨rfl, rfl⟩
  intro s n h
  refine ⟨((bufReader ε).tee_captured s n).trans h.1, ?_⟩
  have hsource : ∀ (s : Source ε) n, s.answers = conn.answers → (s.read n).2.answers = conn.answers :=
    fun s n h => (s.read_answers n).trans h
  exact Reader.tee_keeps
    (Reader.bufio_keeps hsource probeBufSize (by decide)) s n h.2

theorem ofConn_yields (conn : Source ε) : (RoutedConn.ofConn conn).Yields conn.rest conn.answers :=
  RoutedConn.yields_of rfl ⟨conn.reads, fun h => h⟩

theorem replay_yields (decode : Reading ε (Option ProbeMessage)) (conn : Source ε) :
    (replay (decode.run (bufReader ε).tee (([], conn), [])).2.2
      (decode.run (bufReader ε).tee (([], conn), [])).2.1).Yields conn.rest conn.answers := by
  obtain ⟨hrest, hanswers⟩ := probe_run decode conn
  generalize decode.run (bufReader ε).tee (([], conn), []) = x at hrest hanswers
  obtain ⟨decoded, ⟨buf, source⟩, captured⟩ := x
  refine RoutedConn.yields_of hrest ⟨source.reads, fun h => ?_⟩
  refine ⟨fun _ _ => trivial, fun t ht => ?_⟩
  cases ht
  intro i hi
  rw [show source.answers = conn.answers from hanswers]; exact h i hi

/-- The connection that is returned yields the whole stream; with a known role it is the connection
itself. -/
theorem classify_transparent {probe : Probe ε} {role : Option Str} {conn : Source ε} {r : XudpRole} {c : RoutedConn ε}
    (h : classifyXUDPWorkConn probe role conn = .ok (r, c)) :
    c.Yields conn.rest conn.answers ∧
      (role = some xudpWorkConnRoleP2P ∨ role = some xudpWorkConnRoleRelay → c = .ofConn conn) := by
  unfold classifyXUDPWorkConn at h
  simp only at h
  split_ifs at h with hp2p hrelay hempty
  · cases h; exact ⟨ofConn_yields conn, fun _ => rfl⟩
  · cases h; exact ⟨ofConn_yields conn, fun _ => rfl⟩
  · unfold classifyLegacyXUDPWorkConn at h
    split_ifs at h
    cases h
    refine ⟨replay_yields probe.decode conn, fun hrole => ?_⟩
    rcases hrole with hrole | hrole
    · exact absurd (hrole ▸ rfl) hp2p
    · exact absurd (hrole ▸ rfl) hrelay

theorem classify_transparent_short : ∃ c,
    classifyXUDPWorkConn ⟨.read 1 fun _ => .done none, true, true⟩ none
      ⟨[104, 105, 33], fun i => if i = 1 then .fail () else .data 2, 0⟩ = .ok (.relay, c) ∧
      (c.reader.reads c.state [1, 1, 1, 5]).1 = [104, 105, 33] ∧
      c.Yields [104, 105, 33] fun i => if i = 1 then .fail () else .data 2 := by
  have h : classifyXUDPWorkConn ⟨.read 1 fun _ => .done none, true, true⟩ none
      ⟨[104, 105, 33], fun i => if i = 1 then .fail () else .data 2, 0⟩ = .ok (.relay, _) := rfl
  exact ⟨_, h, rfl, (classify_transparent h).1⟩

end Frp
