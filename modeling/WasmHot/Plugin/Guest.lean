import WasmHot.Core.Object
import Mathlib.Data.List.Induction

/-!
# Guest code and the host functions

A guest is an interaction tree: between two host calls it computes freely on its own memory, and
what it does next may depend on everything the host has answered. `Guest.run` plays a tree against
the host functions, each call taking effect at once on the shared storage.

What a run does to the storage is the list of writes the host accepted from it
(`Guest.run_storage`), and that list leaves every component as it was exactly when the last write to
each component puts the old bytes back (`ComponentStorage.writeAll_sameComponents`).
-/

namespace WasmHot

/-! ## Guest memory -/

/-- Memory 0 of a module instance; a module may have none. -/
abbrev GuestMemory := Option (List UInt8)

/-- `WasmEdge_MemoryInstanceGetData`: the bytes of a range that lies in the memory. -/
def getData (memory : List UInt8) (offset len : ℕ) : Option (List UInt8) :=
  if offset + len ≤ memory.length then some ((memory.drop offset).take len) else none

/-- `WasmEdge_MemoryInstanceSetData`: the first `len` bytes of `data` are put at `offset`, if that
range lies in the memory. -/
def setData (memory data : List UInt8) (offset len : ℕ) : Option (List UInt8) :=
  if offset + len ≤ memory.length then
    some (memory.take offset ++ data.take len ++ memory.drop (offset + len))
  else none

/-! ## Host functions -/

/-- `HostContext`, the type of the thread-local `g_host_ctx`. -/
structure HostContext where
  storage : StoragePtr
  objectId : UInt64
  deriving DecidableEq

/-- The context that `Execute` binds for a view. -/
def GameObject.context (obj : GameObject) : HostContext := ⟨obj.storage, obj.header.objectId⟩

/-- A call of one of the three functions of the host module, with the arguments as the host reads
them. -/
inductive HostCall
  | getCurrentObjectId
  | getComponent (objectId : UInt64) (type : ComponentType) (bufPtr bufCap : UInt32)
  | setComponent (objectId : UInt64) (type : ComponentType) (bufPtr len : UInt32)
  deriving DecidableEq

/-- The value a host function returns to the guest. -/
inductive HostValue
  | i64 (value : Int64)
  | i32 (value : Int32)
  deriving DecidableEq

/-- What a host call leaves: its result, the guest's memory and the storage. -/
structure HostAnswer where
  out : HostValue
  memory : GuestMemory
  storage : ComponentStorage

/-- `HostGetCurrentObjectId`. -/
def hostGetCurrentObjectId (ctx : HostContext) : Int64 :=
  ctx.objectId.toInt64

/-- `HostGetComponent`: the result and the guest's memory. -/
def hostGetComponent (ctx : HostContext) (objectId : UInt64) (type : ComponentType)
    (bufPtr bufCap : UInt32) (memory : GuestMemory) (s : ComponentStorage) : Int32 × GuestMemory :=
  match ctx.storage with
  | .null => (-1, memory)
  | .singleton =>
      match s.read objectId type with
      | none => (0, memory)
      | some data =>
          -- The size is cast to 32 bits before it is compared with the capacity.
          let len := UInt32.ofNat data.length
          if len > bufCap then (-2, memory)
          else if len > 0 then
            match memory with
            | none => (-3, none)
            | some bytes =>
                match setData bytes data bufPtr.toNat len.toNat with
                | none => (-3, some bytes)
                | some bytes' => (len.toInt32, some bytes')
          else (len.toInt32, memory)

/-- The bytes `HostSetComponent` copies from the guest; an empty range needs no memory. -/
def componentFrom (memory : GuestMemory) (bufPtr len : UInt32) : Option ComponentData :=
  if len > 0 then memory.bind fun bytes => getData bytes bufPtr.toNat len.toNat else some []

/-- `HostSetComponent`: the result and the storage. -/
def hostSetComponent (ctx : HostContext) (objectId : UInt64) (type : ComponentType)
    (bufPtr len : UInt32) (memory : GuestMemory) (s : ComponentStorage) :
    Int32 × ComponentStorage :=
  match ctx.storage with
  | .null => (0, s)
  | .singleton =>
      match componentFrom memory bufPtr len with
      | none => (0, s)
      | some data => (1, s.write objectId type data)

/-- What the host module does on a call. -/
def HostCall.answer (ctx : HostContext) (memory : GuestMemory) (s : ComponentStorage) :
    HostCall → HostAnswer
  | .getCurrentObjectId => ⟨.i64 (hostGetCurrentObjectId ctx), memory, s⟩
  | .getComponent objectId type bufPtr bufCap =>
      let answer := hostGetComponent ctx objectId type bufPtr bufCap memory s
      ⟨.i32 answer.1, answer.2, s⟩
  | .setComponent objectId type bufPtr len =>
      let answer := hostSetComponent ctx objectId type bufPtr len memory s
      ⟨.i32 answer.1, memory, answer.2⟩

/-! ## Writes to the storage -/

/-- A component with the bytes written to it. -/
structure ComponentWrite where
  objectId : UInt64
  type : ComponentType
  data : ComponentData
  deriving DecidableEq

/-- The write is to this component. -/
def ComponentWrite.Hits (w : ComponentWrite) (objectId : UInt64) (type : ComponentType) : Prop :=
  objectId = w.objectId ∧ type = w.type

instance (w : ComponentWrite) (objectId : UInt64) (type : ComponentType) :
    Decidable (w.Hits objectId type) :=
  inferInstanceAs (Decidable (_ ∧ _))

/-- The bytes of the last write to a component. -/
def lastWritten (writes : List ComponentWrite) (objectId : UInt64) (type : ComponentType) :
    Option ComponentData :=
  (writes.filter fun w => w.Hits objectId type).getLast?.map (·.data)

theorem lastWritten_concat (writes : List ComponentWrite) (w : ComponentWrite) (objectId : UInt64)
    (type : ComponentType) :
    lastWritten (writes ++ [w]) objectId type =
      if w.Hits objectId type then some w.data else lastWritten writes objectId type := by
  unfold lastWritten
  rw [List.filter_append]
  by_cases hhit : w.Hits objectId type
  · rw [if_pos hhit, List.filter_cons_of_pos (by simpa using hhit)]
    simp
  · rw [if_neg hhit, List.filter_cons_of_neg (by simpa using hhit)]
    simp

theorem exists_hits_of_lastWritten {writes : List ComponentWrite} {objectId : UInt64}
    {type : ComponentType} {data : ComponentData}
    (h : lastWritten writes objectId type = some data) :
    ∃ w ∈ writes, w.Hits objectId type := by
  obtain ⟨w, hlast, -⟩ := Option.map_eq_some_iff.mp h
  obtain ⟨hmem, hhit⟩ := List.mem_filter.mp (List.mem_of_getLast? hlast)
  exact ⟨w, hmem, of_decide_eq_true hhit⟩

namespace ComponentStorage

/-- The writes of a list, in order. -/
def writeAll (s : ComponentStorage) (writes : List ComponentWrite) : ComponentStorage :=
  writes.foldl (fun s w => s.write w.objectId w.type w.data) s

theorem writeAll_append (s : ComponentStorage) (ws ws' : List ComponentWrite) :
    s.writeAll (ws ++ ws') = (s.writeAll ws).writeAll ws' :=
  List.foldl_append

/-- A component holds what was last written to it, or what it held before. -/
theorem read_writeAll (s : ComponentStorage) (writes : List ComponentWrite) (objectId : UInt64)
    (type : ComponentType) :
    (s.writeAll writes).read objectId type =
      (lastWritten writes objectId type).or (s.read objectId type) := by
  -- The last write decides, so the induction is from the end of the list.
  induction writes using List.reverseRecOn with
  | nil => rfl
  | append_singleton writes w ih =>
    have hlast : s.writeAll (writes ++ [w]) =
        (s.writeAll writes).write w.objectId w.type w.data := by
      simp [writeAll]
    rw [hlast, read_write, lastWritten_concat, ih]
    show (if w.Hits objectId type then some w.data else _) = _
    by_cases hhit : w.Hits objectId type
    · rw [if_pos hhit, if_pos hhit, Option.some_or]
    · rw [if_neg hhit, if_neg hhit]

/-- A component that no write of a list hits stays as it is. -/
theorem read_writeAll_of_not_hits {writes : List ComponentWrite} {objectId : UInt64}
    {type : ComponentType} (h : ¬ ∃ w ∈ writes, w.Hits objectId type) (s : ComponentStorage) :
    (s.writeAll writes).read objectId type = s.read objectId type := by
  rw [read_writeAll]
  cases hlast : lastWritten writes objectId type with
  | none => exact Option.none_or
  | some data => exact absurd (exists_hits_of_lastWritten hlast) h

/-- A list of writes gives an entry to the objects it writes to. -/
theorem hasEntry_writeAll (s : ComponentStorage) (writes : List ComponentWrite)
    (objectId : UInt64) :
    (s.writeAll writes).HasEntry objectId ↔
      (∃ w ∈ writes, w.objectId = objectId) ∨ s.HasEntry objectId := by
  induction writes generalizing s with
  | nil => simp [writeAll]
  | cons w writes ih =>
    show ((s.write w.objectId w.type w.data).writeAll writes).HasEntry objectId ↔ _
    rw [ih, hasEntry_write]
    simp only [List.mem_cons, exists_eq_or_imp]
    rw [eq_comm (a := objectId), or_left_comm, or_assoc]

/-- Every write to a component is undone by a later one, up to the bytes `s` has there. -/
def RestoredBy (s : ComponentStorage) (writes : List ComponentWrite) : Prop :=
  ∀ objectId type data, lastWritten writes objectId type = some data →
    s.read objectId type = some data

/-- A list of writes changes no component exactly when the last write to each puts the old bytes
back. -/
theorem writeAll_sameComponents (s : ComponentStorage) (writes : List ComponentWrite) :
    (s.writeAll writes).SameComponents s ↔ s.RestoredBy writes := by
  constructor
  · intro hsame objectId type data hlast
    have hread := hsame objectId type
    rw [read_writeAll, hlast, Option.some_or] at hread
    exact hread.symm
  · intro hrestored objectId type
    rw [read_writeAll]
    cases hlast : lastWritten writes objectId type with
    | none => rfl
    | some data => rw [Option.some_or, hrestored objectId type data hlast]

end ComponentStorage

/-! ## Guests -/

/-- What guest code does from some point on: trap, return an `i32`, or call the host and go on with
its result. Each node carries the memory as the guest has left it there. -/
inductive Guest
  | trap (memory : GuestMemory)
  | ret (memory : GuestMemory) (value : Int32)
  | host (memory : GuestMemory) (call : HostCall) (next : HostValue → GuestMemory → Guest)

/-- What running a guest leaves. There is no value after a trap. -/
structure GuestRun where
  value : Option Int32
  memory : GuestMemory
  storage : ComponentStorage

namespace HostCall

/-- The write the host performs for a call: a `set_component` whose range could be read. -/
def accepted (ctx : HostContext) (memory : GuestMemory) : HostCall → List ComponentWrite
  | .setComponent objectId type bufPtr len =>
      match ctx.storage, componentFrom memory bufPtr len with
      | .singleton, some data => [⟨objectId, type, data⟩]
      | _, _ => []
  | _ => []

/-- A host call changes the storage by the write it performs. -/
theorem answer_storage (ctx : HostContext) (memory : GuestMemory) (s : ComponentStorage)
    (call : HostCall) :
    (call.answer ctx memory s).storage = s.writeAll (call.accepted ctx memory) := by
  cases call with
  | getCurrentObjectId => rfl
  | getComponent => rfl
  | setComponent objectId type bufPtr len =>
    show (hostSetComponent ctx objectId type bufPtr len memory s).2 = _
    simp only [hostSetComponent, accepted]
    cases hptr : ctx.storage with
    | null => rfl
    | singleton =>
      cases hdata : componentFrom memory bufPtr len with
      | none => rfl
      | some data => rfl

end HostCall

namespace Guest

/-- Run a guest against the host functions. -/
def run (ctx : HostContext) : Guest → ComponentStorage → GuestRun
  | .trap memory, s => ⟨none, memory, s⟩
  | .ret memory value, s => ⟨some value, memory, s⟩
  | .host memory call next, s =>
      let answer := call.answer ctx memory s
      (next answer.out answer.memory).run ctx answer.storage

/-- The `set_component` writes of a guest that the host performs, in order. -/
def writes (ctx : HostContext) : Guest → ComponentStorage → List ComponentWrite
  | .trap _, _ => []
  | .ret _ _, _ => []
  | .host memory call next, s =>
      let answer := call.answer ctx memory s
      call.accepted ctx memory ++ (next answer.out answer.memory).writes ctx answer.storage

/-- A run changes the storage by its writes and by nothing else. -/
theorem run_storage (ctx : HostContext) (guest : Guest) (s : ComponentStorage) :
    (guest.run ctx s).storage = s.writeAll (guest.writes ctx s) := by
  induction guest generalizing s with
  | trap memory => rfl
  | ret memory value => rfl
  | host memory call next ih =>
    simp only [run, writes]
    rw [ih, ComponentStorage.writeAll_append, call.answer_storage]

end Guest

end WasmHot
