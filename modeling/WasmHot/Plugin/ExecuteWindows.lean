import WasmHot.Plugin.ComponentCalls
import WasmHot.Plugin.WasmEdgePlugin

/-!
# The two windows of Execute

`Execute` and the guest exchange data through two ranges of the memory that the module exports: the
input is put at the front, before the guest starts, and the output is taken from `outputOffset` on,
after it has returned. A module that exports no memory is run all the same: it is told the length of
an input that was put nowhere, and its output is empty.

`execute_keeps_to_windows` says for every exit what `Execute` has put into the memory and what it has
left in the caller's output. It says nothing of the output where a length is returned whose window
the memory does not have.
-/

namespace WasmHot

/-! ## The input window -/

/-- The memory on which `Execute` starts the guest: the input at its front and every other byte as it
was, or the memory as it was where the module exports none. -/
def Vm.StartsOn (vm : Vm) (input : List UInt8) (memory : GuestMemory) : Prop :=
  match vm.exported with
  | none => memory = vm.memory
  | some bytes => input.length ≤ outputOffset.toNat ∧ input.length ≤ bytes.length ∧
      ∃ bytes', memory = some bytes' ∧
        ∀ i, bytes'[i]? = if i < input.length then input[i]? else bytes[i]?

/-- An exported memory is memory 0. -/
theorem Vm.memory_of_exported {vm : Vm} {bytes : List UInt8} (h : vm.exported = some bytes) :
    vm.memory = some bytes := by
  unfold exported at h
  split at h
  · exact h
  · cases h

theorem Vm.placeInput_spec {vm : Vm} {input : List UInt8} {memory : GuestMemory}
    (h : vm.placeInput input = some memory) : vm.StartsOn input memory := by
  unfold placeInput at h
  unfold StartsOn
  cases hexported : vm.exported with
  | none =>
    rw [hexported] at h
    exact (Option.some.inj h).symm
  | some bytes =>
    simp only [hexported] at h ⊢
    split at h
    · next hempty =>
      -- Nothing is put in place of no bytes.
      rw [List.isEmpty_iff.mp hempty]
      refine ⟨Nat.zero_le _, Nat.zero_le _, bytes, ?_, fun i => ?_⟩
      · rw [← Option.some.inj h, vm.memory_of_exported hexported]
      · exact (if_neg (Nat.not_lt_zero i)).symm
    · split at h
      · cases h
      · next hcap =>
        obtain ⟨bytes', hplaced, hmemory⟩ := Option.map_eq_some_iff.mp h
        have hfits : input.length ≤ bytes.length := by
          simp only [setData, Option.ite_none_right_eq_some] at hplaced
          exact (Nat.zero_add input.length).symm.trans_le hplaced.1
        refine ⟨Nat.not_lt.mp hcap, hfits, bytes', hmemory.symm, fun i => ?_⟩
        rw [getElem?_setData hplaced i]
        simp [inputOffset]

/-! ## The output window -/

/-- The output is the window that the returned length selects, byte by byte, or empty where the
module exports no memory. -/
def TakesOutput (exported : GuestMemory) (retLen : Int32) (output : List UInt8) : Prop :=
  match exported with
  | none => output = []
  | some bytes => output.length = retLen.toInt.toNat ∧
      ∀ i < retLen.toInt.toNat, output[i]? = bytes[outputOffset.toNat + i]?

/-- The returned length selects a window that the memory does not have. -/
def MissingWindow (exported : GuestMemory) (value : Option Int32) : Prop :=
  ∃ retLen bytes, value = some retLen ∧ exported = some bytes ∧ 0 < retLen.toInt ∧
    retLen.toInt ≤ outputCap.toNat ∧ bytes.length < outputOffset.toNat + retLen.toInt.toNat

/-- What `Execute` does with the guest's value, exit by exit. -/
theorem takeOutput_spec (exported : GuestMemory) (value : Option Int32) (output : List UInt8) :
    ((takeOutput exported value output).1 = true → ∃ retLen, value = some retLen ∧
      0 ≤ retLen.toInt ∧ retLen.toInt ≤ outputCap.toNat ∧
      TakesOutput exported retLen (takeOutput exported value output).2) ∧
    ((takeOutput exported value output).1 = false → ¬ MissingWindow exported value →
      (takeOutput exported value output).2 = output) := by
  cases value with
  | none => exact ⟨fun hok => absurd hok Bool.false_ne_true, fun _ _ => rfl⟩
  | some retLen =>
    obtain ⟨hneg, hpos, hcap⟩ := retLen_compare retLen
    have hclamp : retLen.toNatClampNeg = retLen.toInt.toNat := rfl
    have hcapNat : outputCap.toNat = 4096 := rfl
    simp only [takeOutput]
    -- A negative value is the error code of the guest.
    by_cases hlow : retLen < 0
    · rw [if_pos hlow]
      exact ⟨fun hok => absurd hok Bool.false_ne_true, fun _ _ => rfl⟩
    rw [if_neg hlow]
    rw [hneg] at hlow
    by_cases hsome : retLen > 0
    swap
    · -- Nothing is returned.
      rw [if_neg hsome]
      rw [hpos] at hsome
      refine ⟨fun _ => ⟨retLen, rfl, by omega, by omega, ?_⟩, fun hfails => ?_⟩
      swap
      · cases hfails
      unfold TakesOutput
      have hzero : retLen.toInt.toNat = 0 := by omega
      cases exported with
      | none => rfl
      | some bytes =>
        rw [hzero]
        exact ⟨rfl, fun i hi => absurd hi (Nat.not_lt_zero i)⟩
    rw [if_pos hsome]
    rw [hpos] at hsome
    -- More than the output window holds: the call fails before it looks at the memory.
    by_cases hbig : retLen > outputCap.toInt32
    · rw [if_pos hbig]
      exact ⟨fun hok => absurd hok Bool.false_ne_true, fun _ _ => rfl⟩
    rw [if_neg hbig]
    rw [hcap] at hbig
    cases exported with
    | none =>
      refine ⟨fun _ => ⟨retLen, rfl, by omega, by omega, rfl⟩, fun hfails => ?_⟩
      cases hfails
    | some bytes =>
      -- `GetData` fails for a window past the end of the memory.
      cases hwindow : getData bytes outputOffset.toNat retLen.toNatClampNeg with
      | none =>
        simp only [hwindow]
        refine ⟨fun hok => absurd hok Bool.false_ne_true, fun _ hmissing => absurd ?_ hmissing⟩
        simp only [getData, ite_eq_right_iff, reduceCtorEq, imp_false] at hwindow
        exact ⟨retLen, bytes, rfl, rfl, by omega, by omega, by omega⟩
      | some data =>
        obtain ⟨hlength, hbytes⟩ := getElem?_getData hwindow
        simp only [hwindow]
        refine ⟨fun _ => ⟨retLen, rfl, by omega, by omega, hlength, hbytes⟩, fun hfails => ?_⟩
        cases hfails

/-! ## Execute -/

namespace WasmEdgePlugin

variable (cityHash64 : String → UInt64)

/-- The guest's run, once `Execute` has started it on this memory. -/
def runOn (vm : Vm) (obj : GameObject) (action : String) (input : List UInt8)
    (memory : GuestMemory) (s : ComponentStorage) : GuestRun :=
  (vm.execute (paramsFor cityHash64 action input) memory).run obj.context s

/-- What `Execute` exchanges with the guest and leaves to its caller. -/
structure KeepsToWindows (p : WasmEdgePlugin) (obj : GameObject) (action : String)
    (input output : List UInt8) (s : ComponentStorage) (executed : Executed) : Prop where
  /-- The guest is started on the VM's memory with the input at its front, and what it leaves in the
  memory stays. -/
  started : ∀ vm memory, p.liveVm = some vm → vm.placeInput input = some memory →
    vm.StartsOn input memory ∧
      executed.plugin.state =
        some (some { vm with memory := (runOn cityHash64 vm obj action input memory s).memory })
  /-- A guest that is not started changes nothing, and `Execute` writes nothing. -/
  notStarted : (∀ vm, p.liveVm = some vm → vm.placeInput input = none) →
    executed.plugin = p ∧ executed.ok = false ∧ executed.output = output
  /-- A success is that of a guest that returned a length the window has room for. -/
  success : executed.ok = true → ∃ vm memory retLen, p.liveVm = some vm ∧
    vm.placeInput input = some memory ∧
    (runOn cityHash64 vm obj action input memory s).value = some retLen ∧
    0 ≤ retLen.toInt ∧ retLen.toInt ≤ outputCap.toNat ∧
    TakesOutput (Vm.exported
      { vm with memory := (runOn cityHash64 vm obj action input memory s).memory }) retLen
      executed.output
  /-- A failure leaves the caller's output alone, unless the window cannot be read. -/
  failure : executed.ok = false →
    (∀ vm memory, p.liveVm = some vm → vm.placeInput input = some memory →
      ¬ MissingWindow (Vm.exported
        { vm with memory := (runOn cityHash64 vm obj action input memory s).memory })
        (runOn cityHash64 vm obj action input memory s).value) →
    executed.output = output

/-- Whatever the guest is and does, `Execute` exchanges data with it through its two windows only. -/
theorem execute_keeps_to_windows (p : WasmEdgePlugin) (obj : GameObject) (action : String)
    (input output : List UInt8) (ctx : HostContext) (s : ComponentStorage) :
    KeepsToWindows cityHash64 p obj action input output s
      (p.execute cityHash64 obj action input output ctx s) := by
  unfold execute
  cases hvm : p.liveVm with
  | none =>
    refine ⟨fun vm memory h => ?_, fun _ => ⟨rfl, rfl, rfl⟩, nofun, fun _ _ => rfl⟩
    rw [hvm] at h
    cases h
  | some vm =>
    dsimp only
    -- The input has to fit its window; where it does not, the guest is not started.
    cases hplaced : vm.placeInput input with
    | none =>
      refine ⟨fun vm' memory h hplaced' => ?_, fun _ => ⟨rfl, rfl, rfl⟩, nofun, fun _ _ => rfl⟩
      cases hvm.symm.trans h
      rw [hplaced] at hplaced'
      cases hplaced'
    | some memory =>
      obtain ⟨hsuccess, hfailure⟩ := takeOutput_spec
        (Vm.exported { vm with memory := (runOn cityHash64 vm obj action input memory s).memory })
        (runOn cityHash64 vm obj action input memory s).value output
      refine ⟨fun vm' memory' h hplaced' => ?_, fun hnone => ?_, fun hok => ?_, fun hok hall => ?_⟩
      · cases hvm.symm.trans h
        cases hplaced.symm.trans hplaced'
        exact ⟨Vm.placeInput_spec hplaced, rfl⟩
      · have habsurd := hnone vm hvm
        rw [hplaced] at habsurd
        cases habsurd
      · obtain ⟨retLen, hvalue, hlow, hhigh, htaken⟩ := hsuccess hok
        exact ⟨vm, memory, retLen, hvm, hplaced, hvalue, hlow, hhigh, htaken⟩
      · exact hfailure hok (hall vm memory hvm hplaced)

/-! ## A module without a memory -/

/-- Return the length of the input. -/
def returnInputLen : ExecuteParams → GuestMemory → Guest :=
  fun params memory => .ret memory params.inputLen.toInt32

/-- A guest without a memory is told of an input of three bytes and returns their number, and
`Execute` succeeds with no output. -/
theorem output_lost_without_memory :
    let p : WasmEdgePlugin := ⟨true, some (some ⟨none, false, returnInputLen⟩)⟩
    let executed := p.execute (fun _ => 0) ⟨⟨1, 0, 5⟩, .singleton⟩ "echo" [1, 2, 3] [9] ⟨.null, 0⟩ .empty
    let run := runOn (fun _ => 0) ⟨none, false, returnInputLen⟩ ⟨⟨1, 0, 5⟩, .singleton⟩ "echo" [1, 2, 3]
      none .empty
    (paramsFor (fun _ => 0) "echo" [1, 2, 3]).inputLen = 3 ∧ run.memory = none ∧
      run.value = some 3 ∧ executed.ok = true ∧ executed.output = [] := by
  decide

end WasmEdgePlugin

end WasmHot
