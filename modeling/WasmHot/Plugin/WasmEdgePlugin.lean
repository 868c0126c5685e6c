import WasmHot.Plugin.Guest

/-!
# WasmEdgePlugin::Execute

`Execute` binds the thread's host context to the object, puts the input at the front of the guest's
memory, runs the guest's `execute` function and copies the output window back. Each exit is a
separate branch here, with what it leaves of the guest's memory and of the caller's output vector.

The guest sees only the hash of the action, so `cityHash64` is a parameter.
-/

namespace WasmHot

/-- The arguments of the guest's `execute` function. -/
structure ExecuteParams where
  actionHash : UInt64
  inputOffset : UInt32
  inputLen : UInt32
  outputOffset : UInt32
  outputCap : UInt32
  deriving DecidableEq

/-- A VM with its instantiated module: memory 0, whether the module exports a memory under the name
"memory", and its `execute` function, started on the memory as it then is. -/
structure Vm where
  memory : GuestMemory
  exportsMemory : Bool
  execute : ExecuteParams → GuestMemory → Guest

/-- `state_->memory`: the memory the module exports, or null. -/
def Vm.exported (vm : Vm) : GuestMemory :=
  if vm.exportsMemory then vm.memory else none

/-- The fields of `WasmEdgePlugin` that `Execute` reads; `state` and the VM in it are pointers. -/
structure WasmEdgePlugin where
  initialized : Bool
  state : Option (Option Vm)

/-- What `Execute` leaves: its result, the caller's output vector, the plugin, the thread's host
context and the storage. -/
structure Executed where
  ok : Bool
  output : List UInt8
  plugin : WasmEdgePlugin
  ctx : HostContext
  storage : ComponentStorage

/-- `input_offset`. -/
def inputOffset : UInt32 := 0

/-- `output_offset`. -/
def outputOffset : UInt32 := 4096

/-- `output_cap`. -/
def outputCap : UInt32 := 4096

/-- `std::vector::resize`: cut off, or filled up with zeros. -/
def resize (bytes : List UInt8) (len : ℕ) : List UInt8 :=
  bytes.take len ++ List.replicate (len - bytes.length) 0

/-- The memory with the input in place, or nothing where `Execute` returns before it runs the
guest. -/
def Vm.placeInput (vm : Vm) (input : List UInt8) : Option GuestMemory :=
  match vm.exported with
  | none => some vm.memory
  | some bytes =>
      if input.isEmpty then some vm.memory
      else if input.length > outputOffset.toNat then none
      else (setData bytes input inputOffset.toNat input.length).map some

/-- What `Execute` does with the value the guest returned; `exported` is `state_->memory` as the
guest left it. -/
def takeOutput (exported : GuestMemory) (value : Option Int32) (output : List UInt8) :
    Bool × List UInt8 :=
  match value with
  | none => (false, output)
  | some retLen =>
      if retLen < 0 then (false, output)
      else if retLen > 0 then
        if retLen > outputCap.toInt32 then (false, output)
        else
          let resized := resize output retLen.toNatClampNeg
          match exported with
          | some bytes =>
              match getData bytes outputOffset.toNat retLen.toNatClampNeg with
              | some data => (true, data)
              -- The vector stays resized when the window cannot be read.
              | none => (false, resized)
          | none => (true, [])
      else (true, [])

namespace WasmEdgePlugin

/-- The VM `Execute` works with; its first check is that there is one. -/
def liveVm (p : WasmEdgePlugin) : Option Vm :=
  if p.initialized then p.state.bind id else none

section

variable (cityHash64 : String → UInt64)

/-- The arguments `Execute` passes to the guest. -/
def paramsFor (action : String) (input : List UInt8) : ExecuteParams :=
  ⟨cityHash64 action, inputOffset, UInt32.ofNat input.length, outputOffset, outputCap⟩

/-- `Execute`. -/
def execute (p : WasmEdgePlugin) (obj : GameObject) (action : String) (input output : List UInt8)
    (ctx : HostContext) (s : ComponentStorage) : Executed :=
  match p.liveVm with
  | none => ⟨false, output, p, ctx, s⟩
  | some vm =>
      -- Bound here and never taken back: every exit below leaves this context in the thread.
      let ctx := obj.context
      match vm.placeInput input with
      | none => ⟨false, output, p, ctx, s⟩
      | some memory =>
          let run := (vm.execute (paramsFor cityHash64 action input) memory).run ctx s
          let vm := { vm with memory := run.memory }
          let taken := takeOutput vm.exported run.value output
          ⟨taken.1, taken.2, { p with state := some (some vm) }, ctx, run.storage⟩

/-- The guest code that `Execute` starts, with the VM it runs in; nothing if `Execute` returns
before. -/
def entered (p : WasmEdgePlugin) (action : String) (input : List UInt8) : Option (Vm × Guest) :=
  p.liveVm.bind fun vm =>
    (vm.placeInput input).map fun memory =>
      (vm, vm.execute (paramsFor cityHash64 action input) memory)

variable {cityHash64} {p : WasmEdgePlugin} {obj : GameObject} {action : String}
  {input output : List UInt8} {ctx : HostContext} {s : ComponentStorage}

variable (obj output ctx s) in
/-- Before the guest starts, `Execute` fails and has touched no component. -/
theorem execute_of_not_entered (h : p.entered cityHash64 action input = none) :
    (p.execute cityHash64 obj action input output ctx s).ok = false ∧
      (p.execute cityHash64 obj action input output ctx s).storage = s := by
  unfold entered at h
  unfold execute
  cases hvm : p.liveVm with
  | none => exact ⟨rfl, rfl⟩
  | some vm =>
    rw [hvm, Option.bind_some, Option.map_eq_none_iff] at h
    simp [h]

variable (obj output ctx s) in
/-- Once the guest has started, it decides the storage, and its value and memory the result. -/
theorem execute_of_entered {vm : Vm} {guest : Guest}
    (h : p.entered cityHash64 action input = some (vm, guest)) :
    let run := guest.run obj.context s
    let taken := takeOutput (Vm.exported { vm with memory := run.memory }) run.value output
    (p.execute cityHash64 obj action input output ctx s).ok = taken.1 ∧
      (p.execute cityHash64 obj action input output ctx s).output = taken.2 ∧
      (p.execute cityHash64 obj action input output ctx s).storage = run.storage := by
  unfold entered at h
  obtain ⟨vm', hvm, hplaced⟩ := Option.bind_eq_some_iff.mp h
  obtain ⟨memory, hmemory, hguest⟩ := Option.map_eq_some_iff.mp hplaced
  cases hguest
  simp [execute, hvm, hmemory]

end

end WasmEdgePlugin

/-! ## Which runs give an output delta -/

/-- The run returned a length for which the exported memory holds, from `outputOffset` on, a delta
of that length. -/
def GuestRun.GivesDelta (run : GuestRun) (exported : GuestMemory) : Prop :=
  ∃ retLen bytes, run.value = some retLen ∧ exported = some bytes ∧
    8 ≤ retLen.toNatClampNeg ∧ retLen.toNatClampNeg ≤ outputCap.toNat ∧
    outputOffset.toNat + retLen.toNatClampNeg ≤ bytes.length ∧
    loadU32 (bytes.drop outputOffset.toNat) = deltaMagic

/-- The first word of a window of at least four bytes is the word at its place in the memory. -/
theorem loadU32_take {bytes : List UInt8} {n : ℕ} (hn : 4 ≤ n) :
    loadU32 (bytes.take n) = loadU32 bytes := by
  obtain ⟨m, rfl⟩ : ∃ m, n = m + 4 := ⟨n - 4, by omega⟩
  match bytes with
  | [] => rfl
  | [_] => rfl
  | [_, _] => rfl
  | [_, _, _] => rfl
  | _ :: _ :: _ :: _ :: _ => rfl

/-- The bytes of the output window. -/
def outputWindow (bytes : List UInt8) (retLen : Int32) : List UInt8 :=
  (bytes.drop outputOffset.toNat).take retLen.toNatClampNeg

/-- The window that a returned length selects is not empty, not longer than the guest was allowed,
and lies in the memory. -/
structure HasWindow (bytes : List UInt8) (retLen : Int32) : Prop where
  pos : 0 < retLen.toNatClampNeg
  le_cap : retLen.toNatClampNeg ≤ outputCap.toNat
  fits : outputOffset.toNat + retLen.toNatClampNeg ≤ bytes.length

/-- The comparisons `Execute` makes with the returned length, as comparisons of its value. -/
theorem retLen_compare (retLen : Int32) :
    (retLen < 0 ↔ retLen.toInt < 0) ∧ (retLen > 0 ↔ 0 < retLen.toNatClampNeg) ∧
      (retLen > outputCap.toInt32 ↔ outputCap.toNat < retLen.toNatClampNeg) := by
  have hclamp : retLen.toNatClampNeg = retLen.toInt.toNat := rfl
  have hcap : retLen > outputCap.toInt32 ↔ 4096 < retLen.toInt := Int32.lt_iff_toInt_lt
  have hpos : retLen > 0 ↔ 0 < retLen.toInt := Int32.lt_iff_toInt_lt
  have hcapNat : outputCap.toNat = 4096 := rfl
  refine ⟨Int32.lt_iff_toInt_lt, ?_, ?_⟩
  · rw [hpos, hclamp]
    omega
  · rw [hcap, hclamp, hcapNat]
    omega

/-- A window is copied to the output. -/
theorem takeOutput_of_window {bytes : List UInt8} {retLen : Int32} (h : HasWindow bytes retLen)
    (output : List UInt8) :
    takeOutput (some bytes) (some retLen) output = (true, outputWindow bytes retLen) := by
  obtain ⟨hneg, hpos, hcap⟩ := retLen_compare retLen
  have hclamp : retLen.toNatClampNeg = retLen.toInt.toNat := rfl
  have hlow : ¬ retLen < 0 := by
    have hlt := h.pos
    rw [hneg]
    omega
  have hhigh : ¬ retLen > outputCap.toInt32 := by
    rw [hcap]
    exact Nat.not_lt.mpr h.le_cap
  simp only [takeOutput]
  rw [if_neg hlow, if_pos (hpos.mpr h.pos), if_neg hhigh]
  simp [getData, h.fits, outputWindow]

/-- Where `Execute` succeeds with a nonempty output, that output is a window. -/
theorem takeOutput_cases {exported : GuestMemory} {value : Option Int32} {output : List UInt8}
    (hok : (takeOutput exported value output).1 = true)
    (hne : (takeOutput exported value output).2 ≠ []) :
    ∃ retLen bytes, value = some retLen ∧ exported = some bytes ∧ HasWindow bytes retLen := by
  cases value with
  | none => cases hok
  | some retLen =>
    obtain ⟨-, hpos, hcap⟩ := retLen_compare retLen
    simp only [takeOutput] at hok hne
    by_cases hneg : retLen < 0
    · rw [if_pos hneg] at hok
      cases hok
    rw [if_neg hneg] at hok hne
    by_cases hnonzero : retLen > 0
    swap
    · rw [if_neg hnonzero] at hne
      exact absurd rfl hne
    rw [if_pos hnonzero] at hok hne
    by_cases hbig : retLen > outputCap.toInt32
    · rw [if_pos hbig] at hok
      cases hok
    rw [if_neg hbig] at hok hne
    rw [hcap] at hbig
    cases exported with
    | none => exact absurd rfl hne
    | some bytes =>
      by_cases hfits : outputOffset.toNat + retLen.toNatClampNeg ≤ bytes.length
      · exact ⟨retLen, bytes, rfl, rfl, hpos.mp hnonzero, Nat.not_lt.mp hbig, hfits⟩
      · simp [getData, hfits] at hok

/-- A window is a delta when it is long enough and the memory has the magic at its place. -/
theorem outputWindow_isDelta_iff {bytes : List UInt8} {retLen : Int32}
    (h : HasWindow bytes retLen) :
    GameObject.IsDelta (outputWindow bytes retLen) ↔
      8 ≤ retLen.toNatClampNeg ∧ loadU32 (bytes.drop outputOffset.toNat) = deltaMagic := by
  have hlen : (outputWindow bytes retLen).length = retLen.toNatClampNeg := by
    have hfits := h.fits
    rw [outputWindow, List.length_take, List.length_drop]
    omega
  unfold GameObject.IsDelta
  rw [hlen]
  apply and_congr_right
  intro hlow
  rw [outputWindow, loadU32_take (by omega)]

/-- `Execute` succeeds with an output that `ApplyOutputDelta` accepts exactly when the run gives a
delta. -/
theorem takeOutput_isDelta_iff (exported : GuestMemory) (run : GuestRun) (output : List UInt8) :
    ((takeOutput exported run.value output).1 = true ∧
        GameObject.IsDelta (takeOutput exported run.value output).2) ↔
      run.GivesDelta exported := by
  constructor
  · rintro ⟨hok, hdelta⟩
    have hne : (takeOutput exported run.value output).2 ≠ [] := by
      intro hnil
      rw [hnil] at hdelta
      exact absurd hdelta.1 (by decide)
    obtain ⟨retLen, bytes, hvalue, hexported, hwindow⟩ := takeOutput_cases hok hne
    rw [hvalue, hexported, takeOutput_of_window hwindow,
      outputWindow_isDelta_iff hwindow] at hdelta
    exact ⟨retLen, bytes, hvalue, hexported, hdelta.1, hwindow.le_cap, hwindow.fits, hdelta.2⟩
  · rintro ⟨retLen, bytes, hvalue, hexported, hlow, hhigh, hfits, hmagic⟩
    have hwindow : HasWindow bytes retLen := ⟨by omega, hhigh, hfits⟩
    rw [hvalue, hexported, takeOutput_of_window hwindow]
    exact ⟨rfl, (outputWindow_isDelta_iff hwindow).mpr ⟨hlow, hmagic⟩⟩

end WasmHot
