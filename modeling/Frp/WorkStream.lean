import Mathlib.Data.List.Basic

/-!
# The stream around a work connection

`UDPProxy.Run`, `HTTPProxy.GetRealConn` and `handleUserTCPConnection` put layers around a
pooled connection and keep the outermost in a variable, over which the close function given to
`WrapReadWriteCloser` is a closure. Of golib it is assumed that `WithEncryption` and
`WithCompression` close the inner stream and that `WrapReadWriteCloser` runs its close function
once.
-/

namespace Frp

inductive StreamObj
  | workConn
  | encryption (inner : Nat)
  | compression (inner : Nat)
  | limited (closed : Bool)
  | connWrapper (inner : Nat)
  | statsConn (closed : Bool) (inner : Nat)
  | msgConn (inner : Nat)
  deriving DecidableEq

/-- `rwc` is the variable the close function of a limited stream reads, `top` the stream that is
handed on, and `closes` counts the calls of `Close` on the pooled connection. -/
structure StreamHeap where
  objs : List StreamObj
  rwc : Nat
  top : Nat
  closes : Nat
  deriving DecidableEq

structure TransportConfig where
  useEncryption : Bool
  useCompression : Bool
  limiter : Bool
  deriving DecidableEq

namespace StreamHeap

def pooled : StreamHeap := ⟨[.workConn], 0, 0, 0⟩

def assign (h : StreamHeap) (o : StreamObj) : StreamHeap :=
  { h with objs := h.objs ++ [o], rwc := h.objs.length, top := h.objs.length }

def wrap (h : StreamHeap) (o : StreamObj) : StreamHeap :=
  { h with objs := h.objs ++ [o], top := h.objs.length }

/-- `Close` of the object at `ref`; `none` if the calls do not come to an end within `fuel`. -/
def close : Nat → StreamHeap → Nat → Option StreamHeap
  | 0, _, _ => none
  | fuel + 1, h, ref =>
    match h.objs[ref]? with
    | none => none
    | some .workConn => some { h with closes := h.closes + 1 }
    | some (.encryption inner) | some (.compression inner) | some (.connWrapper inner) | some (.msgConn inner) =>
      close fuel h inner
    | some (.limited true) | some (.statsConn true _) => some h
    | some (.limited false) => close fuel { h with objs := h.objs.set ref (.limited true) } h.rwc
    | some (.statsConn false inner) => close fuel { h with objs := h.objs.set ref (.statsConn true inner) } inner

end StreamHeap

def wrapWorkConn (t : TransportConfig) : StreamHeap :=
  let h := StreamHeap.pooled
  let h := if t.useEncryption then h.assign (.encryption h.rwc) else h
  let h := if t.useCompression then h.assign (.compression h.rwc) else h
  if t.limiter then h.assign (.limited false) else h

def udpPayloadConn (t : TransportConfig) : StreamHeap :=
  let h := wrapWorkConn t
  let h := h.wrap (.connWrapper h.rwc)
  h.wrap (.msgConn h.top)

def getRealConn (t : TransportConfig) : StreamHeap :=
  let h := wrapWorkConn t
  let h := h.wrap (.connWrapper h.rwc)
  h.wrap (.statsConn false h.top)

def userTCPLocal (t : TransportConfig) : StreamHeap := wrapWorkConn t

inductive StreamSite
  | udp
  | http
  | tcp

def StreamSite.stream : StreamSite → TransportConfig → StreamHeap
  | udp, t => udpPayloadConn t
  | http, t => getRealConn t
  | tcp, t => userTCPLocal t

def closeFuel : Nat := 8

def StreamHeap.closeTop (h : StreamHeap) : StreamHeap := (h.close closeFuel h.top).getD h

end Frp
