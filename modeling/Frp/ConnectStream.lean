import Frp.Bufio
import Frp.MuxerSound

/-!
# The stream behind a CONNECT request

`readHTTPConnectRequest` and `getHostFromHTTPConnect` of `pkg/util/tcpmux/httpconnect.go` on
the bytes a client sends. With `passthrough` the listener gets the shared connection, which
first repeats what was read.
-/

namespace Frp.HTTPConnect

def readRequest (parse : List Str → Option Request) (stream : Str) (reads : List Nat) : Option (Request × Bufio) :=
  (Bufio.readHead (stream.length + 1) (.ofStream stream reads)).bind fun x => (parse x.1).map fun req => (req, x.2)

def ownConn (b : Bufio) : Str := b.rest

def sharedConn (b : Bufio) : Str := b.taken ++ b.rest

def outConn (passthrough : Bool) (b : Bufio) : Str := if passthrough then sharedConn b else ownConn b

def handleStream [UnicodeCase] (parse : List Str → Option Request) (passthrough : Bool)
    (tbl : Routers VhostListener) (faults : Faults) (stream : Str) (reads : List Nat) :
    Outcome × Option (VhostListener × Str) :=
  let r := readRequest parse stream reads
  let out := serve passthrough tbl faults (r.map Prod.fst)
  (out, out.handed.bind fun l => r.map fun x => (l, outConn passthrough x.2))

def ConnectHead (parse : List Str → Option Request) (h : Str) (req : Request) : Prop :=
  ∃ ls, Bufio.HeadLines ls h ∧ parse ls = some req ∧ req.method = Request.connect

section
variable {parse : List Str → Option Request} {h d : Str} {req : Request} {reads : List Nat}

theorem ConnectHead.readRequest_eq (hh : ConnectHead parse h req) {x : Request × Bufio}
    (hx : readRequest parse (h ++ d) reads = some x) :
    x.1 = req ∧ x.2.taken = h ++ x.2.buffered ∧ x.2.buffered ++ x.2.rest = d := by
  obtain ⟨ls, hls, hparse, -⟩ := hh
  obtain ⟨y, hy, hreq⟩ := Option.bind_eq_some_iff.mp hx
  obtain ⟨hlines, hbuffered, htaken⟩ := (Bufio.readHead_spec hls rfl (by simp; omega)).1 y.1 y.2 hy
  rw [hlines, hparse] at hreq; cases hreq
  refine ⟨rfl, ?_, hbuffered⟩
  have htaken : y.2.taken ++ y.2.rest = h ++ d := htaken
  rw [← hbuffered, ← List.append_assoc] at htaken; exact List.append_cancel_right htaken

theorem ConnectHead.readRequest_ne_none (hh : ConnectHead parse h req) (hreads : h.length ≤ reads.length) :
    readRequest parse (h ++ d) reads ≠ none := by
  obtain ⟨ls, hls, hparse, -⟩ := hh
  intro hnone
  have hspec := Bufio.readHead_spec (b := .ofStream (h ++ d) reads) hls rfl
    (show h.length ≤ (h ++ d).length + 1 by simp; omega)
  obtain ⟨y, hy⟩ := Option.ne_none_iff_exists'.mp (hspec.2 (by simpa [Bufio.ofStream] using hreads))
  obtain ⟨hlines, -⟩ := hspec.1 y.1 y.2 hy
  rw [readRequest, hy, Option.bind_some, hlines, hparse] at hnone; cases hnone

/-- The listener's connection yields all that the client sent, or without `passthrough` what follows
the head, just when no byte after the head was read together with it. -/
theorem handed_stream_iff [UnicodeCase] (hh : ConnectHead parse h req) (d : Str) (passthrough : Bool)
    (tbl : Routers VhostListener) (faults : Faults) (reads : List Nat) :
    (h.length ≤ reads.length → ∃ b, readRequest parse (h ++ d) reads = some (req, b)) ∧
      ∀ l s, (handleStream parse passthrough tbl faults (h ++ d) reads).2 = some (l, s) →
        ∃ b lost, readRequest parse (h ++ d) reads = some (req, b) ∧ b.taken = h ++ lost ∧
          (passthrough = false → lost ++ s = d) ∧
          (s = (if passthrough then h ++ d else d) ↔ passthrough = true ∨ lost = []) := by
  constructor
  · intro hreads
    obtain ⟨x, hx⟩ := Option.ne_none_iff_exists'.mp (hh.readRequest_ne_none (d := d) hreads)
    obtain ⟨rfl, -⟩ := hh.readRequest_eq hx
    exact ⟨x.2, hx⟩
  · intro l s hs
    obtain ⟨l', -, hs⟩ := Option.bind_eq_some_iff.mp hs
    obtain ⟨x, hx, heq⟩ := Option.map_eq_some_iff.mp hs
    cases heq
    obtain ⟨rfl, htaken, hrest⟩ := hh.readRequest_eq hx
    refine ⟨x.2, x.2.buffered, hx, htaken, ?_, ?_⟩
    · intro hp
      simp only [hp, outConn, ownConn]; exact hrest
    · cases passthrough with
      | true => simp [outConn, sharedConn, htaken, hrest]
      | false => simp [outConn, ownConn, ← hrest]

end

/-! ## Data in the segment of the head -/

section
attribute [local instance] UnicodeCase.ascii

def connectLine : Str := lit "CONNECT example.com:443 HTTP/1.1"

def parseConnectLine (lines : List Str) : Option Request := if lines = [connectLine] then some (connectTo []) else none

def connectBytes : Str := connectLine ++ lit "\r\n\r\n"

theorem connectHead_bytes : ConnectHead parseConnectLine connectBytes (connectTo []) := by
  refine ⟨[connectLine], ?_, rfl, rfl⟩
  exact Bufio.HeadLines.line (l := connectLine ++ [13]) (by decide) (by decide)
    (Bufio.HeadLines.blank (l := [13]) (by decide) (by decide))

theorem handed_stream_apart :
    (handleStream parseConnectLine false (tableOf passwordOnly) .none (connectBytes ++ lit "hi") [35]).2 =
      some (passwordOnly, lit "hi") ∧
    ∃ b lost, readRequest parseConnectLine (connectBytes ++ lit "hi") [35] = some (connectTo [], b) ∧
      b.taken = connectBytes ++ lost ∧ (false = false → lost ++ lit "hi" = lit "hi") ∧
      (lit "hi" = lit "hi" ↔ false = true ∨ lost = []) :=
  ⟨rfl, (handed_stream_iff connectHead_bytes (lit "hi") false (tableOf passwordOnly) .none [35]).2 passwordOnly _ rfl⟩

theorem handed_stream_lost :
    ConnectHead parseConnectLine connectBytes (connectTo []) ∧
      (handleStream parseConnectLine false (tableOf passwordOnly) .none (connectBytes ++ lit "hi") [37]).2 =
        some (passwordOnly, []) :=
  ⟨connectHead_bytes, rfl⟩

end

end Frp.HTTPConnect
