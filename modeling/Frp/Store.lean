import Frp.Lts
import Frp.Str
import Mathlib.Logic.Function.Basic

/-!
# The store of proxies and visitors

`pkg/config/source/store.go`. Every operation changes a map, writes both to a temporary file
and renames it, and puts the map back if a step fails. The order of a map and the answers of
the file system are inputs.
-/

namespace Frp

inductive StoreKind
  | proxy
  | visitor
  deriving DecidableEq

inductive SaveStep
  | marshal
  | mkdir
  | open
  | write
  | sync
  | close
  | rename
  deriving DecidableEq

inductive StoreError
  | isNil (kind : StoreKind)
  | emptyName (kind : StoreKind)
  | alreadyExists (kind : StoreKind) (name : Str)
  | notFound (kind : StoreKind) (name : Str)
  | persist (step : SaveStep) (cause : Str)

/-- Configurations and their JSON: the names, the encoding of both lists, and a decoding that gives back what was
encoded. -/
structure StoreCodec (P V R : Type) where
  proxyName : P → Str
  visitorName : V → Str
  marshalIndent : List P → List V → Str
  unmarshal : Str → Except Str (List R × List R)
  decodeProxy : R → Except Str P
  decodeVisitor : R → Except Str V
  decodes : ∀ ps vs, ∃ rs us, unmarshal (marshalIndent ps vs) = .ok (rs, us) ∧
    List.Forall₂ (fun r p => decodeProxy r = .ok p) rs ps ∧ List.Forall₂ (fun r v => decodeVisitor r = .ok v) us vs

/-! ## Loading -/

inductive LoadError
  | read (cause : Str)
  | parse (cause : Str)
  | decode (kind : StoreKind) (index : Nat) (cause : Str)
  | emptyName (kind : StoreKind)
  | noPath

section
variable {α R : Type}

def loadEntries (kind : StoreKind) (decode : R → Except Str α) (name : α → Str) :
    Nat → List R → (Str → Option α) → Except LoadError (Str → Option α)
  | _, [], entries => .ok entries
  | i, r :: rs, entries =>
    match decode r with
    | .error e => .error (.decode kind i e)
    | .ok a =>
      if name a = [] then .error (.emptyName kind)
      else loadEntries kind decode name (i + 1) rs (Function.update entries (name a) (some a))

end

section
variable {P V R : Type}

def loadFromFileUnlocked (codec : StoreCodec P V R) (data : Str) :
    Except LoadError ((Str → Option P) × (Str → Option V)) :=
  match codec.unmarshal data with
  | .error e => .error (.parse e)
  | .ok (rs, us) =>
    match loadEntries .proxy codec.decodeProxy codec.proxyName 0 rs fun _ => none with
    | .error e => .error e
    | .ok proxies =>
      match loadEntries .visitor codec.decodeVisitor codec.visitorName 0 us fun _ => none with
      | .error e => .error e
      | .ok visitors => .ok (proxies, visitors)

structure Disk where
  file : Option Str
  tmp : Option Str

structure StoreSource (P V : Type) where
  proxies : Str → Option P
  visitors : Str → Option V
  disk : Disk

/-- `readError` is an error of reading the file other than that it does not exist. -/
def newStoreSource (codec : StoreCodec P V R) (path : Str) (readError : Option Str) (disk : Disk) :
    Except LoadError (StoreSource P V) :=
  if path = [] then .error .noPath
  else
    match readError, disk.file with
    | some e, _ => .error (.read e)
    | none, none => .ok ⟨fun _ => none, fun _ => none, disk⟩
    | none, some data =>
      match loadFromFileUnlocked codec data with
      | .error e => .error e
      | .ok (proxies, visitors) => .ok ⟨proxies, visitors, disk⟩

end

/-! ## Saving -/

/-- What the file system answers: which steps fail, how much a failing write has written, and whether the
temporary file can be removed. -/
structure SaveFaults where
  fails : SaveStep → Option Str
  written : Nat
  removes : Bool

def Disk.discard (disk : Disk) (x : SaveFaults) : Disk := if x.removes then { disk with tmp := none } else disk

def saveToFileUnlocked (data : Str) (x : SaveFaults) (disk : Disk) : Disk × Option StoreError :=
  match x.fails .marshal with
  | some e => (disk, some (.persist .marshal e))
  | none =>
  match x.fails .mkdir with
  | some e => (disk, some (.persist .mkdir e))
  | none =>
  match x.fails .open with
  | some e => (disk, some (.persist .open e))
  | none =>
  match x.fails .write with
  | some e => (Disk.discard { disk with tmp := some (data.take x.written) } x, some (.persist .write e))
  | none =>
  let disk := { disk with tmp := some data }
  match x.fails .sync with
  | some e => (disk.discard x, some (.persist .sync e))
  | none =>
  match x.fails .close with
  | some e => (disk.discard x, some (.persist .close e))
  | none =>
  match x.fails .rename with
  | some e => (disk.discard x, some (.persist .rename e))
  | none => (⟨disk.tmp, none⟩, none)

section
variable {α : Type}

abbrev Persisted (α : Type) := (Str → Option α) × Disk × Option StoreError

def persistOrRollbackUnlocked (save : Disk × Option StoreError) (entries : Str → Option α)
    (rollback : (Str → Option α) → Str → Option α) : Persisted α :=
  match save with
  | (disk, some e) => (rollback entries, disk, some e)
  | (disk, none) => (entries, disk, none)

def addStoreEntry (save : Disk × Option StoreError) (kind : StoreKind) (name : Str) (value : α)
    (entries : Str → Option α) (disk : Disk) : Persisted α :=
  match entries name with
  | some _ => (entries, disk, some (.alreadyExists kind name))
  | none =>
    persistOrRollbackUnlocked save (Function.update entries name (some value)) fun m => Function.update m name none

def updateStoreEntry (save : Disk × Option StoreError) (kind : StoreKind) (name : Str) (value : α)
    (entries : Str → Option α) (disk : Disk) : Persisted α :=
  match entries name with
  | none => (entries, disk, some (.notFound kind name))
  | some old =>
    persistOrRollbackUnlocked save (Function.update entries name (some value)) fun m =>
      Function.update m name (some old)

def removeStoreEntry (save : Disk × Option StoreError) (kind : StoreKind) (name : Str)
    (entries : Str → Option α) (disk : Disk) : Persisted α :=
  if name = [] then (entries, disk, some (.emptyName kind))
  else
    match entries name with
    | none => (entries, disk, some (.notFound kind name))
    | some old =>
      persistOrRollbackUnlocked save (Function.update entries name none) fun m => Function.update m name (some old)

/-- `validateProxyName` and `validateVisitorName`; a nil configuration is `none`. -/
def validateName (kind : StoreKind) (name : α → Str) : Option α → Except StoreError (Str × α)
  | none => .error (.isNil kind)
  | some a => if name a = [] then .error (.emptyName kind) else .ok (name a, a)

end

/-! ## Operations -/

inductive EntryOp (α : Type)
  | add (value : Option α)
  | update (value : Option α)
  | remove (name : Str)

inductive StoreOp (P V : Type)
  | proxy (op : EntryOp P)
  | visitor (op : EntryOp V)

section
variable {α P V R : Type}

def EntryOp.run (kind : StoreKind) (name : α → Str) (save : Disk × Option StoreError) (entries : Str → Option α)
    (disk : Disk) : EntryOp α → Persisted α
  | add value =>
    match validateName kind name value with
    | .error e => (entries, disk, some e)
    | .ok (n, a) => addStoreEntry save kind n a entries disk
  | update value =>
    match validateName kind name value with
    | .error e => (entries, disk, some e)
    | .ok (n, a) => updateStoreEntry save kind n a entries disk
  | remove n => removeStoreEntry save kind n entries disk

def EntryOp.target (name : α → Str) (entries : Str → Option α) : EntryOp α → Str → Option α
  | add (some a) | update (some a) => Function.update entries (name a) (some a)
  | add none | update none => entries
  | remove n => Function.update entries n none

/-- `AddProxy`, `UpdateProxy`, `RemoveProxy` and the same for visitors, where `ps` and `vs` are the configurations
in the order they are gone through. -/
def StoreSource.run (codec : StoreCodec P V R) (x : SaveFaults) (ps : List P) (vs : List V) (s : StoreSource P V) :
    StoreOp P V → StoreSource P V × Option StoreError
  | .proxy op =>
    match op.run .proxy codec.proxyName (saveToFileUnlocked (codec.marshalIndent ps vs) x s.disk) s.proxies s.disk with
    | (proxies, disk, e) => ({ s with proxies, disk }, e)
  | .visitor op =>
    match op.run .visitor codec.visitorName (saveToFileUnlocked (codec.marshalIndent ps vs) x s.disk) s.visitors
      s.disk with
    | (visitors, disk, e) => ({ s with visitors, disk }, e)

def Enumerates (name : α → Str) (m : Str → Option α) (l : List α) : Prop :=
  (l.map name).Nodup ∧ ∀ n a, m n = some a ↔ a ∈ l ∧ name a = n

def StoreOp.targets (codec : StoreCodec P V R) (s : StoreSource P V) : StoreOp P V → (Str → Option P) × (Str → Option V)
  | proxy op => (op.target codec.proxyName s.proxies, s.visitors)
  | visitor op => (s.proxies, op.target codec.visitorName s.visitors)

structure StoreEvent (P V : Type) where
  op : StoreOp P V
  faults : SaveFaults
  proxies : List P
  visitors : List V
  error : Option StoreError

def StoreSource.Init (codec : StoreCodec P V R) (s : StoreSource P V) : Prop :=
  ∃ path readError disk, newStoreSource codec path readError disk = .ok s

def StoreStep (codec : StoreCodec P V R) (s : StoreSource P V) (e : StoreEvent P V) (t : StoreSource P V) : Prop :=
  Enumerates codec.proxyName (e.op.targets codec s).1 e.proxies ∧
    Enumerates codec.visitorName (e.op.targets codec s).2 e.visitors ∧
    s.run codec e.faults e.proxies e.visitors e.op = (t, e.error)

end

end Frp
