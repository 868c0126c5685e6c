import WasmHot.Plugin.Guest

/-!
# get_component and set_component

`HostSetComponent` copies a range of the guest's memory into a component and `HostGetComponent`
copies a component into a range of the memory. Lengths cross between the two as `uint32_t`, and
`HostGetComponent` returns them as an `int32_t`, in which it returns its error codes too.

So a component that was set is got back as it was, whatever host calls come in between, but its
length is returned as a negative number from `2 ^ 31` on (`get_returns_set_iff`). And a guest can
tell the outcomes of `get_component` apart as long as no component is empty, which looks like one
that is absent, and none is so large that its length looks like an error code or does not fit into
32 bits (`outcomes_told_apart_iff`).
-/

namespace WasmHot

/-! ## Ranges of a memory -/

/-- A range that can be read has its bytes in order. -/
theorem getElem?_getData {memory data : List UInt8} {offset len : ℕ}
    (h : getData memory offset len = some data) :
    data.length = len ∧ ∀ i < len, data[i]? = memory[offset + i]? := by
  simp only [getData, Option.ite_none_right_eq_some, Option.some.injEq] at h
  obtain ⟨hfits, rfl⟩ := h
  refine ⟨?_, fun i hi => ?_⟩
  · rw [List.length_take, List.length_drop]
    omega
  · rw [List.getElem?_take_of_lt hi, List.getElem?_drop]

/-- After a range has been written it has the bytes given, and every other byte is as it was. -/
theorem getElem?_setData {memory data memory' : List UInt8} {offset : ℕ}
    (h : setData memory data offset data.length = some memory') (i : ℕ) :
    memory'[i]? =
      if offset ≤ i ∧ i < offset + data.length then data[i - offset]? else memory[i]? := by
  simp only [setData, Option.ite_none_right_eq_some, Option.some.injEq, List.take_length] at h
  obtain ⟨hfits, rfl⟩ := h
  have hfront : (memory.take offset).length = offset := by
    rw [List.length_take]
    omega
  rw [List.append_assoc]
  by_cases hbefore : i < offset
  · rw [if_neg (by omega), List.getElem?_append_left (by omega), List.getElem?_take_of_lt hbefore]
  · rw [List.getElem?_append_right (by omega), hfront]
    by_cases hinside : i < offset + data.length
    · rw [if_pos (by omega), List.getElem?_append_left (by omega)]
    · rw [if_neg (by omega), List.getElem?_append_right (by omega), List.getElem?_drop]
      apply congrArg
      omega

/-- A range that lies in the memory can be written. -/
theorem exists_setData {memory data : List UInt8} {offset : ℕ}
    (h : offset + data.length ≤ memory.length) :
    ∃ memory', setData memory data offset data.length = some memory' :=
  ⟨_, if_pos h⟩

/-! ## What is set is got -/

/-- A host call with the context of its thread and the memory of its guest. -/
structure HostedCall where
  ctx : HostContext
  memory : GuestMemory
  call : HostCall

/-- The host performs a write to this component for the call. -/
def HostedCall.Writes (c : HostedCall) (objectId : UInt64) (type : ComponentType) : Prop :=
  ∃ w ∈ c.call.accepted c.ctx c.memory, w.Hits objectId type

/-- The storage after some host calls. -/
def ComponentStorage.afterCalls (s : ComponentStorage) (calls : List HostedCall) :
    ComponentStorage :=
  calls.foldl (fun s c => (c.call.answer c.ctx c.memory s).storage) s

/-- A component stays as it is while no host call writes it. -/
theorem ComponentStorage.read_afterCalls {objectId : UInt64} {type : ComponentType}
    {calls : List HostedCall} (h : ∀ c ∈ calls, ¬ c.Writes objectId type) (s : ComponentStorage) :
    (s.afterCalls calls).read objectId type = s.read objectId type := by
  induction calls generalizing s with
  | nil => rfl
  | cons c calls ih =>
    have hrest := ih (fun c' hc' => h c' (List.mem_cons_of_mem _ hc'))
    rw [afterCalls, List.foldl_cons, ← afterCalls, hrest, c.call.answer_storage]
    exact read_writeAll_of_not_hits (h c List.mem_cons_self) s

/-- `set_component` returns 1 if it has copied its range into the component. -/
theorem hostSetComponent_eq_one_iff {ctx : HostContext} {objectId : UInt64} {type : ComponentType}
    {srcPtr len : UInt32} {source : GuestMemory} {s : ComponentStorage} :
    (hostSetComponent ctx objectId type srcPtr len source s).1 = 1 ↔
      ctx.storage = .singleton ∧ ∃ data, componentFrom source srcPtr len = some data ∧
        (hostSetComponent ctx objectId type srcPtr len source s).2 = s.write objectId type data := by
  unfold hostSetComponent
  cases hptr : ctx.storage with
  | null => simp
  | singleton =>
    cases hdata : componentFrom source srcPtr len with
    | none => simp
    | some data => simp

/-- The bytes that `set_component` takes from its range. -/
theorem componentFrom_spec {source : GuestMemory} {srcPtr len : UInt32} {data : ComponentData}
    (h : componentFrom source srcPtr len = some data) :
    data.length = len.toNat ∧
      ∀ i < len.toNat, data[i]? = (source.getD [])[srcPtr.toNat + i]? := by
  unfold componentFrom at h
  by_cases hpos : len > 0
  · rw [if_pos hpos] at h
    obtain ⟨bytes, rfl, hbytes⟩ := Option.bind_eq_some_iff.mp h
    exact getElem?_getData hbytes
  · rw [if_neg hpos] at h
    cases h
    have hzero : len.toNat = 0 := by
      have hle := UInt32.le_iff_toNat_le.mp (UInt32.not_lt.mp hpos)
      rw [UInt32.toNat_zero] at hle
      omega
    rw [hzero]
    exact ⟨rfl, fun i hi => absurd hi (Nat.not_lt_zero i)⟩

/-- `get_component` of a component whose size fits into 32 bits and into the buffer, which lies in
the memory. -/
theorem hostGetComponent_of_fits {ctx : HostContext} (hptr : ctx.storage = .singleton)
    {objectId : UInt64} {type : ComponentType} {bufPtr bufCap : UInt32} {bytes : List UInt8}
    {s : ComponentStorage} {data : ComponentData} (hread : s.read objectId type = some data)
    (hsize : data.length < 2 ^ 32) (hcap : data.length ≤ bufCap.toNat)
    (hbuffer : bufPtr.toNat + data.length ≤ bytes.length) :
    ∃ bytes', setData bytes data bufPtr.toNat data.length = some bytes' ∧
      hostGetComponent ctx objectId type bufPtr bufCap (some bytes) s =
        ((UInt32.ofNat data.length).toInt32, some bytes') := by
  have hlen : (UInt32.ofNat data.length).toNat = data.length := UInt32.toNat_ofNat_of_lt' hsize
  have hnot : ¬ UInt32.ofNat data.length > bufCap := by
    rw [gt_iff_lt, UInt32.lt_iff_toNat_lt, hlen]
    omega
  obtain ⟨bytes', hbytes'⟩ := exists_setData hbuffer
  refine ⟨bytes', hbytes', ?_⟩
  simp only [hostGetComponent, hptr, hread, hlen, hbytes', if_neg hnot]
  split
  · rfl
  · next hpos =>
    -- An empty component is not copied, and copying it would change nothing.
    have hempty : data = [] := by
      rw [gt_iff_lt, UInt32.lt_iff_toNat_lt, hlen, UInt32.toNat_zero] at hpos
      exact List.eq_nil_of_length_eq_zero (by omega)
    subst hempty
    simp only [setData, List.length_nil, Nat.add_zero, Option.ite_none_right_eq_some,
      Option.some.injEq, List.take_nil, List.append_nil, List.take_append_drop] at hbytes'
    rw [hbytes'.2]

/-- A length is returned as the number it is as long as it is below `2 ^ 31`. -/
theorem toInt_toInt32_eq_iff (len : UInt32) :
    len.toInt32.toInt = len.toNat ↔ len.toNat < 2 ^ 31 := by
  have hlt := len.toNat_lt
  rw [← Int32.toInt_toBitVec, UInt32.toBitVec_toInt32, BitVec.toInt_eq_toNat_cond,
    UInt32.toNat_toBitVec]
  split <;> omega

/-- A range that lies in the guest's memory is copied into the component. -/
theorem hostSetComponent_of_fits {ctx : HostContext} (hptr : ctx.storage = .singleton)
    {objectId : UInt64} {type : ComponentType} {srcPtr len : UInt32} {bytes : List UInt8}
    {s : ComponentStorage} (hfits : srcPtr.toNat + len.toNat ≤ bytes.length) :
    (hostSetComponent ctx objectId type srcPtr len (some bytes) s).1 = 1 := by
  apply hostSetComponent_eq_one_iff.mpr
  have hdata : ∃ data, componentFrom (some bytes) srcPtr len = some data := by
    unfold componentFrom
    split
    · exact ⟨_, if_pos hfits⟩
    · exact ⟨[], rfl⟩
  obtain ⟨data, hdata⟩ := hdata
  refine ⟨hptr, data, hdata, ?_⟩
  simp only [hostSetComponent, hptr, hdata]

/-- What a `set_component` stored is got into any buffer that has room for it, by whichever guest has
a storage, with the length cast to a signed number as the result. -/
theorem hostGetComponent_of_set {ctx ctx' : HostContext} (hptr' : ctx'.storage = .singleton) {objectId : UInt64} {type : ComponentType}
    {srcPtr len bufPtr bufCap : UInt32} {source : GuestMemory} {s : ComponentStorage}
    (hset : (hostSetComponent ctx objectId type srcPtr len source s).1 = 1)
    {calls : List HostedCall} (hcalls : ∀ c ∈ calls, ¬ c.Writes objectId type)
    (hcap : len ≤ bufCap) {bytes : List UInt8}
    (hbuffer : bufPtr.toNat + len.toNat ≤ bytes.length) :
    ∃ data bytes', componentFrom source srcPtr len = some data ∧
      setData bytes data bufPtr.toNat data.length = some bytes' ∧
      hostGetComponent ctx' objectId type bufPtr bufCap (some bytes)
        ((hostSetComponent ctx objectId type srcPtr len source s).2.afterCalls calls) =
          (len.toInt32, some bytes') := by
  obtain ⟨-, data, hdata, hstored⟩ := hostSetComponent_eq_one_iff.mp hset
  obtain ⟨hlength, -⟩ := componentFrom_spec hdata
  rw [hstored]
  have hread : ((s.write objectId type data).afterCalls calls).read objectId type = some data := by
    rw [ComponentStorage.read_afterCalls hcalls, ComponentStorage.read_write, if_pos ⟨rfl, rfl⟩]
  have hsize : data.length < 2 ^ 32 := by
    rw [hlength]
    exact len.toNat_lt
  have hroom : data.length ≤ bufCap.toNat := by
    rw [hlength]
    exact UInt32.le_iff_toNat_le.mp hcap
  rw [← hlength] at hbuffer
  obtain ⟨bytes', hbytes', hgot⟩ := hostGetComponent_of_fits hptr' hread hsize hroom hbuffer
  have hcast : UInt32.ofNat data.length = len := by
    rw [hlength]
    exact UInt32.ofNat_toNat
  rw [hcast] at hgot
  exact ⟨data, bytes', hdata, hbytes', hgot⟩

/-- What `get_component` returns and leaves after a `set_component`: the length, the bytes that were
in the source range at their place in the buffer and every other byte as it was; and the set has
changed no other component. -/
structure GetsWhatWasSet (source : GuestMemory) (srcPtr len : UInt32) (objectId : UInt64)
    (type : ComponentType) (before stored : ComponentStorage) (bufPtr : UInt32)
    (bytes : List UInt8) (got : Int32 × GuestMemory) : Prop where
  result : 0 ≤ got.1.toInt ∧ got.1.toInt = len.toNat
  memory : ∃ bytes', got.2 = some bytes' ∧ ∀ i, bytes'[i]? =
    if bufPtr.toNat ≤ i ∧ i < bufPtr.toNat + len.toNat then
      (source.getD [])[srcPtr.toNat + (i - bufPtr.toNat)]?
    else bytes[i]?
  others : ∀ id type', (id, type') ≠ (objectId, type) →
    stored.read id type' = before.read id type'

/-- After a `set_component` that returned 1, and any host calls that do not write the component, a
`get_component` with room for it, by the same guest or another one, gets what was set exactly when its
length is below `2 ^ 31`. -/
theorem get_returns_set_iff {ctx ctx' : HostContext} (hptr' : ctx'.storage = .singleton)
    {objectId : UInt64} {type : ComponentType} {srcPtr len bufPtr bufCap : UInt32} {source : GuestMemory} {s : ComponentStorage}
    (hset : (hostSetComponent ctx objectId type srcPtr len source s).1 = 1)
    {calls : List HostedCall} (hcalls : ∀ c ∈ calls, ¬ c.Writes objectId type)
    (hcap : len ≤ bufCap) {bytes : List UInt8}
    (hbuffer : bufPtr.toNat + len.toNat ≤ bytes.length) :
    GetsWhatWasSet source srcPtr len objectId type s
        (hostSetComponent ctx objectId type srcPtr len source s).2 bufPtr bytes
        (hostGetComponent ctx' objectId type bufPtr bufCap (some bytes)
          ((hostSetComponent ctx objectId type srcPtr len source s).2.afterCalls calls)) ↔
      len.toNat < 2 ^ 31 := by
  obtain ⟨data, bytes', hdata, hbytes', hgot⟩ :=
    hostGetComponent_of_set hptr' hset hcalls hcap hbuffer
  obtain ⟨hlength, hsource⟩ := componentFrom_spec hdata
  obtain ⟨-, data', hdata', hstored⟩ := hostSetComponent_eq_one_iff.mp hset
  rw [hgot]
  constructor
  · intro hgets
    exact (toInt_toInt32_eq_iff len).mp hgets.result.2
  · intro hlow
    have hresult := (toInt_toInt32_eq_iff len).mpr hlow
    have hnonneg : 0 ≤ len.toInt32.toInt := by omega
    refine ⟨⟨hnonneg, hresult⟩, ⟨bytes', rfl, fun i => ?_⟩, fun id type' hne => ?_⟩
    · rw [getElem?_setData hbytes' i, hlength]
      split
      · next hinside => exact hsource _ (by omega)
      · rfl
    · rw [hstored]
      exact ComponentStorage.read_write_of_ne hne s data'

/-- Three bytes are set, another component is set, and the three bytes are got for another object. -/
theorem get_returns_set_small :
    GetsWhatWasSet (some [9, 1, 2, 3]) 1 3 5 7 .empty
      (hostSetComponent ⟨.singleton, 5⟩ 5 7 1 3 (some [9, 1, 2, 3]) .empty).2 2 [0, 0, 0, 0, 0, 0]
      (hostGetComponent ⟨.singleton, 8⟩ 5 7 2 4 (some [0, 0, 0, 0, 0, 0])
        ((hostSetComponent ⟨.singleton, 5⟩ 5 7 1 3 (some [9, 1, 2, 3]) .empty).2.afterCalls
          [⟨⟨.singleton, 5⟩, some [4], .setComponent 5 8 0 1⟩])) := by
  have hset : (hostSetComponent ⟨.singleton, 5⟩ 5 7 1 3 (some [9, 1, 2, 3]) .empty).1 = 1 :=
    hostSetComponent_of_fits rfl (by decide)
  have hcalls : ∀ c ∈ [(⟨⟨.singleton, 5⟩, some [4], .setComponent 5 8 0 1⟩ : HostedCall)],
      ¬ c.Writes 5 7 := by
    intro c hc
    rw [List.mem_singleton.mp hc, HostedCall.Writes]
    decide
  exact (get_returns_set_iff rfl hset hcalls (by decide) (by decide)).mpr (by decide)

/-- A guest with a memory of `2 ^ 31` bytes sets a component to all of it, and gets it back with the
length `-2 ^ 31`. -/
theorem negative_of_full_memory {bytes : List UInt8} (hbytes : bytes.length = 2147483648)
    {len : UInt32} (hlen : len = 2147483648) :
    (hostSetComponent ⟨.singleton, 5⟩ 5 7 0 len (some bytes) .empty).1 = 1 ∧
      (hostGetComponent ⟨.singleton, 5⟩ 5 7 0 len (some bytes)
        (hostSetComponent ⟨.singleton, 5⟩ 5 7 0 len (some bytes) .empty).2).1.toInt =
          -2147483648 := by
  have htoNat : len.toNat = 2147483648 := by
    rw [hlen]
    rfl
  have hfits : (0 : UInt32).toNat + len.toNat ≤ bytes.length := by
    rw [htoNat, hbytes, UInt32.toNat_zero]
  have hset : (hostSetComponent ⟨.singleton, 5⟩ 5 7 0 len (some bytes) .empty).1 = 1 :=
    hostSetComponent_of_fits rfl hfits
  have hcalls : ∀ c ∈ ([] : List HostedCall), ¬ c.Writes 5 7 :=
    fun c hc => absurd hc List.not_mem_nil
  have hptr : (⟨.singleton, 5⟩ : HostContext).storage = .singleton := rfl
  obtain ⟨data, bytes', -, -, hgot⟩ :=
    hostGetComponent_of_set hptr hset hcalls (UInt32.le_refl len) hfits
  rw [ComponentStorage.afterCalls, List.foldl_nil] at hgot
  refine ⟨hset, ?_⟩
  rw [hgot, hlen]
  rfl

/-- A component of `2 ^ 31` bytes is not got as it was set. -/
theorem long_component_is_got_negative :
    ∃ bytes : List UInt8, bytes = List.replicate 2147483648 0 ∧
      (hostSetComponent ⟨.singleton, 5⟩ 5 7 0 2147483648 (some bytes) .empty).1 = 1 ∧
      ¬ GetsWhatWasSet (some bytes) 0 2147483648 5 7 .empty
        (hostSetComponent ⟨.singleton, 5⟩ 5 7 0 2147483648 (some bytes) .empty).2 0 bytes
        (hostGetComponent ⟨.singleton, 5⟩ 5 7 0 2147483648 (some bytes)
          (hostSetComponent ⟨.singleton, 5⟩ 5 7 0 2147483648 (some bytes) .empty).2) := by
  obtain ⟨bytes, hbytes⟩ : ∃ bytes : List UInt8, bytes = List.replicate 2147483648 0 := ⟨_, rfl⟩
  have hlength : bytes.length = 2147483648 := by
    rw [hbytes, List.length_replicate]
  obtain ⟨hset, hresult⟩ := negative_of_full_memory hlength rfl
  refine ⟨bytes, hbytes, hset, fun hgets => ?_⟩
  have hnonneg := hgets.result.1
  omega

/-! ## The outcomes of `get_component` -/

/-- A call of `get_component` with the context of its thread and the memory of its guest. -/
structure GetCall where
  ctx : HostContext
  objectId : UInt64
  type : ComponentType
  bufPtr : UInt32
  bufCap : UInt32
  memory : GuestMemory

/-- What can come of a `get_component`. -/
inductive GetOutcome
  | noStorage
  | absent
  | tooLarge
  | memoryFailure
  | copied (size : ℕ)
  deriving DecidableEq

/-- The first `len` bytes from `offset` on lie in the memory; no bytes need no memory. -/
def GuestMemory.HasRange (memory : GuestMemory) (offset len : ℕ) : Prop :=
  len = 0 ∨ ∃ bytes, memory = some bytes ∧ offset + len ≤ bytes.length

instance (memory : GuestMemory) (offset len : ℕ) : Decidable (memory.HasRange offset len) :=
  match memory with
  | none => decidable_of_iff (len = 0) ⟨Or.inl, fun h => h.elim id fun ⟨_, h, _⟩ => nomatch h⟩
  | some bytes => decidable_of_iff (len = 0 ∨ offset + len ≤ bytes.length)
      ⟨fun h => h.imp_right fun h => ⟨bytes, rfl, h⟩,
        fun h => h.imp_right fun ⟨_, h, hle⟩ => Option.some.inj h ▸ hle⟩

namespace GetCall

/-- What comes of a call, going by the size that the component has. -/
def outcome (c : GetCall) (s : ComponentStorage) : GetOutcome :=
  match c.ctx.storage with
  | .null => .noStorage
  | .singleton =>
      match s.read c.objectId c.type with
      | none => .absent
      | some data =>
          if c.bufCap.toNat < data.length then .tooLarge
          else if c.memory.HasRange c.bufPtr.toNat data.length then .copied data.length
          else .memoryFailure

/-- What the host answers. -/
def answer (c : GetCall) (s : ComponentStorage) : HostAnswer :=
  (HostCall.getComponent c.objectId c.type c.bufPtr c.bufCap).answer c.ctx c.memory s

/-- The result the guest gets, as an unsigned number. -/
def code (c : GetCall) (s : ComponentStorage) : ℕ :=
  (hostGetComponent c.ctx c.objectId c.type c.bufPtr c.bufCap c.memory s).1.toUInt32.toNat

/-- Different numbers are different results. -/
theorem out_ne_of_code_ne {c c' : GetCall} {s : ComponentStorage} (h : c.code s ≠ c'.code s) :
    (c.answer s).out ≠ (c'.answer s).out := by
  intro hout
  apply h
  simp only [answer, HostCall.answer, HostValue.i32.injEq] at hout
  rw [code, code, hout]

/-- Equal numbers are equal results. -/
theorem out_eq_of_code_eq {c c' : GetCall} {s : ComponentStorage} (h : c.code s = c'.code s) :
    (c.answer s).out = (c'.answer s).out := by
  have hcast : ∀ n : Int32, n.toUInt32.toInt32 = n := Int32.toInt32_toUInt32
  have hword := congrArg UInt32.toInt32 (UInt32.toNat_inj.mp h)
  rw [hcast, hcast] at hword
  simp only [answer, HostCall.answer, hword]

end GetCall

namespace ComponentStorage

/-- The guests can tell the outcomes apart, and only a copy leaves a trace. -/
structure ToldApart (s : ComponentStorage) : Prop where
  results : ∀ c c' : GetCall, c.outcome s ≠ c'.outcome s → (c.answer s).out ≠ (c'.answer s).out
  unchanged : ∀ c : GetCall, (∀ size, c.outcome s ≠ .copied size) →
    (c.answer s).memory = c.memory ∧ (c.answer s).storage = s

/-- Some component has this many bytes. -/
def HasSize (s : ComponentStorage) (size : ℕ) : Prop :=
  ∃ objectId type data, s.read objectId type = some data ∧ data.length = size

/-- The sizes leave each result one meaning: none looks like an error code or overflows into the
memory, and 0 stands for an absent component, for an empty one or for those whose size is a positive
multiple of `2 ^ 32`, but not for two of these. -/
structure SizesApart (s : ComponentStorage) : Prop where
  below : ∀ size, s.HasSize size → size < 2 ^ 32 - 3 ∨ 2 ^ 32 ∣ size
  absent : (∃ objectId type, s.read objectId type = none) → ∀ size, s.HasSize size → ¬ 2 ^ 32 ∣ size
  empty : s.HasSize 0 → ∀ size, s.HasSize size → 2 ^ 32 ∣ size → size = 0

/-- The number by which an outcome is reported while the sizes are apart. -/
inductive Reports (s : ComponentStorage) : GetOutcome → ℕ → Prop
  | noStorage : s.Reports .noStorage (2 ^ 32 - 1)
  | absent (h : ∃ objectId type, s.read objectId type = none) : s.Reports .absent 0
  | tooLarge : s.Reports .tooLarge (2 ^ 32 - 2)
  /-- The size is cast to 0 before it is compared. -/
  | tooLargeAsZero {size : ℕ} (h : s.HasSize size) (hpos : size ≠ 0) (hzero : 2 ^ 32 ∣ size) :
      s.Reports .tooLarge 0
  | memoryFailure : s.Reports .memoryFailure (2 ^ 32 - 3)
  | copied {size : ℕ} (h : s.HasSize size) (hsize : size < 2 ^ 32) : s.Reports (.copied size) size

/-- The outcome that a nonzero number reports. -/
def outcomeOf (n : ℕ) : GetOutcome :=
  if n = 2 ^ 32 - 1 then .noStorage
  else if n = 2 ^ 32 - 2 then .tooLarge
  else if n = 2 ^ 32 - 3 then .memoryFailure
  else .copied n

/-- A nonzero number reports one outcome: a size is none of the error codes. -/
theorem SizesApart.eq_outcomeOf {s : ComponentStorage} (hs : s.SizesApart) {o : GetOutcome} {n : ℕ}
    (h : s.Reports o n) (hn : n ≠ 0) : o = outcomeOf n := by
  cases h with
  | noStorage => rfl
  | tooLarge => rfl
  | memoryFailure => rfl
  | absent _ => exact absurd rfl hn
  | tooLargeAsZero _ _ _ => exact absurd rfl hn
  | copied hsize hlt =>
    have hbelow : n < 2 ^ 32 - 3 := by
      rcases hs.below n hsize with hbelow | hdvd
      · exact hbelow
      · exact absurd (Nat.eq_zero_of_dvd_of_lt hdvd hlt) hn
    rw [outcomeOf, if_neg (by omega), if_neg (by omega), if_neg (by omega)]

/-- The three outcomes that 0 can report. -/
theorem Reports.of_zero {s : ComponentStorage} {o : GetOutcome} (h : s.Reports o 0) :
    (o = .absent ∧ ∃ objectId type, s.read objectId type = none) ∨
      (o = .copied 0 ∧ s.HasSize 0) ∨
      (o = .tooLarge ∧ ∃ size, s.HasSize size ∧ size ≠ 0 ∧ 2 ^ 32 ∣ size) := by
  generalize hn : 0 = n at h
  cases h with
  | noStorage => omega
  | tooLarge => omega
  | memoryFailure => omega
  | absent habsent => exact .inl ⟨rfl, habsent⟩
  | tooLargeAsZero hsize hpos hzero => exact .inr (.inr ⟨rfl, _, hsize, hpos, hzero⟩)
  | copied hsize _ =>
    subst hn
    exact .inr (.inl ⟨rfl, hsize⟩)

/-- While the sizes are apart, no number reports two outcomes. -/
theorem SizesApart.reports_inj {s : ComponentStorage} (hs : s.SizesApart) {o o' : GetOutcome}
    {n : ℕ} (h : s.Reports o n) (h' : s.Reports o' n) : o = o' := by
  by_cases hn : n = 0
  swap
  · rw [hs.eq_outcomeOf h hn, hs.eq_outcomeOf h' hn]
  subst hn
  rcases h.of_zero with ⟨rfl, habsent⟩ | ⟨rfl, hempty⟩ | ⟨rfl, size, hsize, hpos, hzero⟩
  · rcases h'.of_zero with ⟨rfl, -⟩ | ⟨-, hempty⟩ | ⟨-, size, hsize, -, hzero⟩
    · rfl
    · exact absurd (Nat.dvd_zero _) (hs.absent habsent 0 hempty)
    · exact absurd hzero (hs.absent habsent size hsize)
  · rcases h'.of_zero with ⟨-, habsent⟩ | ⟨rfl, -⟩ | ⟨-, size, hsize, hpos, hzero⟩
    · exact absurd (Nat.dvd_zero _) (hs.absent habsent 0 hempty)
    · rfl
    · exact absurd (hs.empty hempty size hsize hzero) hpos
  · rcases h'.of_zero with ⟨-, habsent⟩ | ⟨-, hempty⟩ | ⟨rfl, -⟩
    · exact absurd hzero (hs.absent habsent size hsize)
    · exact absurd (hs.empty hempty size hsize hzero) hpos
    · rfl

end ComponentStorage

namespace GetCall

open ComponentStorage

/-- The three ways `get_component` goes when the component is there, by the size after the cast. -/
theorem hostGetComponent_of_read {ctx : HostContext} (hptr : ctx.storage = .singleton)
    {objectId : UInt64} {type : ComponentType} {s : ComponentStorage} {data : ComponentData}
    (hread : s.read objectId type = some data) (bufPtr bufCap : UInt32) (memory : GuestMemory) :
    let len := data.length % 2 ^ 32
    let got := hostGetComponent ctx objectId type bufPtr bufCap memory s
    (bufCap.toNat < len ∧ got = (-2, memory)) ∨
      (len ≤ bufCap.toNat ∧ ¬ memory.HasRange bufPtr.toNat len ∧ got = (-3, memory)) ∨
      (len ≤ bufCap.toNat ∧ memory.HasRange bufPtr.toNat len ∧
        got.1 = (UInt32.ofNat data.length).toInt32 ∧
        got.2 = if len = 0 then memory
          else memory.bind fun bytes => setData bytes data bufPtr.toNat len) := by
  intro len got
  have hlen : (UInt32.ofNat data.length).toNat = len := UInt32.toNat_ofNat'
  have hgot : got = hostGetComponent ctx objectId type bufPtr bufCap memory s := rfl
  simp only [hostGetComponent, hptr, hread, gt_iff_lt, UInt32.lt_iff_toNat_lt, hlen,
    UInt32.toNat_zero] at hgot
  by_cases hcap : bufCap.toNat < len
  · rw [if_pos hcap] at hgot
    exact .inl ⟨hcap, hgot⟩
  rw [if_neg hcap] at hgot
  have hle := Nat.not_lt.mp hcap
  -- Nothing is written for a size of 0, so the buffer need not be there.
  by_cases hpos : 0 < len
  swap
  · rw [if_neg hpos] at hgot
    have hzero : len = 0 := by omega
    exact .inr (.inr ⟨hle, .inl hzero, by rw [hgot], by rw [hgot, if_pos hzero]⟩)
  rw [if_pos hpos] at hgot
  cases memory with
  -- A module without a memory has no room for anything.
  | none =>
    refine .inr (.inl ⟨hle, ?_, hgot⟩)
    rintro (hzero | ⟨_, hnone, -⟩)
    · omega
    · cases hnone
  | some bytes =>
    by_cases hfits : bufPtr.toNat + len ≤ bytes.length
    · simp only [setData, if_pos hfits] at hgot
      refine .inr (.inr ⟨hle, .inr ⟨bytes, rfl, hfits⟩, by rw [hgot], ?_⟩)
      rw [hgot, if_neg (by omega)]
      exact (if_pos hfits).symm
    · simp only [setData, if_neg hfits] at hgot
      refine .inr (.inl ⟨hle, ?_, hgot⟩)
      rintro (hzero | ⟨_, hsome, hle'⟩)
      · omega
      · cases hsome
        exact hfits hle'

variable {c : GetCall} {s : ComponentStorage}

/-- The outcomes of a call by the storage pointer of its thread and the component it reads. -/
theorem outcome_of_null (hptr : c.ctx.storage = .null) : c.outcome s = .noStorage := by
  simp only [outcome, hptr]

theorem outcome_of_absent (hptr : c.ctx.storage = .singleton)
    (hread : s.read c.objectId c.type = none) : c.outcome s = .absent := by
  simp only [outcome, hptr, hread]

theorem outcome_of_read (hptr : c.ctx.storage = .singleton) {data : ComponentData}
    (hread : s.read c.objectId c.type = some data) :
    c.outcome s =
      if c.bufCap.toNat < data.length then .tooLarge
      else if c.memory.HasRange c.bufPtr.toNat data.length then .copied data.length
      else .memoryFailure := by
  simp only [outcome, hptr, hread]

/-- A component of `2 ^ 32` bytes or more is larger than any buffer. -/
theorem outcome_of_huge (hptr : c.ctx.storage = .singleton) {data : ComponentData}
    (hread : s.read c.objectId c.type = some data) (hhuge : 2 ^ 32 ≤ data.length) :
    c.outcome s = .tooLarge := by
  have hcap := c.bufCap.toNat_lt
  rw [outcome_of_read hptr hread, if_pos (by omega)]

/-- While the sizes are apart, a call leaves the memory alone unless it copies, and its result
reports its outcome. -/
theorem reports_code (hs : s.SizesApart) (c : GetCall) :
    s.Reports (c.outcome s) (c.code s) ∧
      ((∀ size, c.outcome s ≠ .copied size) → (c.answer s).memory = c.memory) := by
  cases hptr : c.ctx.storage with
  | null =>
    rw [outcome_of_null hptr]
    simp only [code, answer, HostCall.answer, hostGetComponent, hptr]
    exact ⟨.noStorage, fun _ => trivial⟩
  | singleton =>
    cases hread : s.read c.objectId c.type with
    | none =>
      rw [outcome_of_absent hptr hread]
      simp only [code, answer, HostCall.answer, hostGetComponent, hptr, hread]
      exact ⟨.absent ⟨_, _, hread⟩, fun _ => trivial⟩
    | some data =>
      have hsize : s.HasSize data.length := ⟨_, _, data, hread, rfl⟩
      have hways := hostGetComponent_of_read hptr hread c.bufPtr c.bufCap c.memory
      simp only [code, answer, HostCall.answer]
      by_cases hfits : data.length < 2 ^ 32
      · -- The cast keeps the size, so the host decides as the outcome does.
        rw [Nat.mod_eq_of_lt hfits] at hways
        rw [outcome_of_read hptr hread]
        rcases hways with ⟨hcap, hgot⟩ | ⟨hcap, hrange, hgot⟩ | ⟨hcap, hrange, hgot, -⟩
        · rw [if_pos hcap, hgot]
          exact ⟨.tooLarge, fun _ => rfl⟩
        · rw [if_neg (by omega), if_neg hrange, hgot]
          exact ⟨.memoryFailure, fun _ => rfl⟩
        · rw [if_neg (by omega), if_pos hrange, hgot, UInt32.toUInt32_toInt32,
            UInt32.toNat_ofNat_of_lt' hfits]
          exact ⟨.copied hsize hfits, fun hnot => absurd rfl (hnot _)⟩
      · -- The cast makes the size 0, so nothing is copied.
        have hdvd : 2 ^ 32 ∣ data.length := by
          rcases hs.below _ hsize with hbelow | hdvd
          · omega
          · exact hdvd
        rw [Nat.mod_eq_zero_of_dvd hdvd] at hways
        rw [outcome_of_huge hptr hread (by omega)]
        -- A size of 0 is within any capacity and any memory, so only the last way is left.
        rcases hways with ⟨hcap, -⟩ | ⟨-, hrange, -⟩ | ⟨-, -, hgot, hmemory⟩
        · omega
        · exact absurd (.inl rfl) hrange
        · rw [hgot, UInt32.toUInt32_toInt32, UInt32.toNat_ofNat', Nat.mod_eq_zero_of_dvd hdvd]
          exact ⟨.tooLargeAsZero hsize (by omega) hdvd, fun _ => hmemory⟩

/-! Calls that show a size to be a bad one. -/

/-- The context that these calls are made with. -/
theorem storage_singleton : (⟨.singleton, 0⟩ : HostContext).storage = .singleton := rfl

/-- An absent component is reported as 0. -/
theorem absent_zero {objectId : UInt64} {type : ComponentType}
    (hread : s.read objectId type = none) :
    let c : GetCall := ⟨⟨.singleton, 0⟩, objectId, type, 0, 0, none⟩
    c.outcome s = .absent ∧ c.code s = 0 := by
  refine ⟨outcome_of_absent rfl hread, ?_⟩
  simp only [code, hostGetComponent, hread]
  rfl

/-- A component of less than `2 ^ 32` bytes can be copied, and its size is then the result. -/
theorem exists_copied {size : ℕ} (h : s.HasSize size) (hsize : size < 2 ^ 32) :
    ∃ c : GetCall, c.outcome s = .copied size ∧ c.code s = size := by
  obtain ⟨objectId, type, data, hread, rfl⟩ := h
  have hcap : (UInt32.ofNat data.length).toNat = data.length := UInt32.toNat_ofNat_of_lt' hsize
  refine ⟨⟨⟨.singleton, 0⟩, objectId, type, 0, .ofNat data.length, some data⟩, ?_, ?_⟩
  · rw [outcome_of_read rfl hread, if_neg (by rw [hcap]; omega)]
    exact if_pos (.inr ⟨data, rfl, (Nat.zero_add _).le⟩)
  · have hbuffer : (0 : UInt32).toNat + data.length ≤ data.length := (Nat.zero_add _).le
    obtain ⟨bytes', -, hgot⟩ :=
      hostGetComponent_of_fits storage_singleton hread hsize hcap.ge hbuffer
    rw [code, hgot, UInt32.toUInt32_toInt32, hcap]

/-- A component whose size is a positive multiple of `2 ^ 32` is reported as 0. -/
theorem exists_tooLarge_zero {size : ℕ} (h : s.HasSize size) (hpos : size ≠ 0)
    (hdvd : 2 ^ 32 ∣ size) : ∃ c : GetCall, c.outcome s = .tooLarge ∧ c.code s = 0 := by
  obtain ⟨objectId, type, data, hread, rfl⟩ := h
  have hhuge := Nat.le_of_dvd (Nat.pos_of_ne_zero hpos) hdvd
  refine ⟨⟨⟨.singleton, 0⟩, objectId, type, 0, 0, none⟩, outcome_of_huge rfl hread hhuge, ?_⟩
  have hways := hostGetComponent_of_read storage_singleton hread 0 0 none
  rw [Nat.mod_eq_zero_of_dvd hdvd] at hways
  rcases hways with ⟨hcap, -⟩ | ⟨-, hrange, -⟩ | ⟨-, -, hgot, -⟩
  · omega
  · exact absurd (.inl rfl) hrange
  · rw [code, hgot, UInt32.toUInt32_toInt32, UInt32.toNat_ofNat', Nat.mod_eq_zero_of_dvd hdvd]

/-- A component of less than `2 ^ 32` bytes, not an empty one, can be too large and can fail on the
memory. -/
theorem exists_failures {size : ℕ} (h : s.HasSize size) (hpos : size ≠ 0) (hsize : size < 2 ^ 32) :
    (∃ c : GetCall, c.outcome s = .tooLarge ∧ c.code s = 2 ^ 32 - 2) ∧
      ∃ c : GetCall, c.outcome s = .memoryFailure ∧ c.code s = 2 ^ 32 - 3 := by
  obtain ⟨objectId, type, data, hread, rfl⟩ := h
  have hlen : (UInt32.ofNat data.length).toNat = data.length := UInt32.toNat_ofNat_of_lt' hsize
  have hnone : ¬ GuestMemory.HasRange none 0 data.length := by
    rintro (hzero | ⟨_, hnone, -⟩)
    · exact hpos hzero
    · cases hnone
  -- A buffer of 0 bytes is too small; one of the size in a module without memory is not there.
  constructor
  · refine ⟨⟨⟨.singleton, 0⟩, objectId, type, 0, 0, none⟩, ?_, ?_⟩
    · rw [outcome_of_read rfl hread]
      exact if_pos (Nat.pos_of_ne_zero hpos)
    · have hways := hostGetComponent_of_read storage_singleton hread 0 0 none
      rw [Nat.mod_eq_of_lt hsize, UInt32.toNat_zero] at hways
      rcases hways with ⟨-, hgot⟩ | ⟨hle, -⟩ | ⟨hle, -⟩
      · rw [code, hgot]
        rfl
      · omega
      · omega
  · refine ⟨⟨⟨.singleton, 0⟩, objectId, type, 0, .ofNat data.length, none⟩, ?_, ?_⟩
    · rw [outcome_of_read rfl hread, if_neg (by rw [hlen]; omega)]
      exact if_neg hnone
    · have hways := hostGetComponent_of_read storage_singleton hread 0
        (.ofNat data.length) none
      rw [Nat.mod_eq_of_lt hsize, hlen, UInt32.toNat_zero] at hways
      rcases hways with ⟨hlt, -⟩ | ⟨-, -, hgot⟩ | ⟨-, hrange, -⟩
      · omega
      · rw [code, hgot]
        rfl
      · exact absurd hrange hnone

/-- The low bits of a size that does not fit are copied over the memory, which is to be unchanged
for a component that is too large. -/
theorem exists_tooLarge_changed {size : ℕ} (h : s.HasSize size) (hhuge : 2 ^ 32 ≤ size)
    (hdvd : ¬ 2 ^ 32 ∣ size) :
    ∃ c : GetCall, c.outcome s = .tooLarge ∧ (c.answer s).memory ≠ c.memory := by
  obtain ⟨objectId, type, data, hread, rfl⟩ := h
  obtain ⟨low, hlow⟩ : ∃ low, low = data.length % 2 ^ 32 := ⟨_, rfl⟩
  have hpos : 0 < low := by omega
  have hlt : low < 2 ^ 32 := by omega
  have hcap : (UInt32.ofNat low).toNat = low := UInt32.toNat_ofNat_of_lt' hlt
  -- A memory with another first byte than the component.
  obtain ⟨bytes, hbytes⟩ : ∃ bytes, bytes = (data.take low).map (· + 1) := ⟨_, rfl⟩
  have hlength : bytes.length = low := by
    rw [hbytes, List.length_map, List.length_take]
    omega
  have hranged : GuestMemory.HasRange (some bytes) 0 low := .inr ⟨bytes, rfl, by omega⟩
  refine ⟨⟨⟨.singleton, 0⟩, objectId, type, 0, .ofNat low, some bytes⟩,
    outcome_of_huge rfl hread hhuge, fun hsame => ?_⟩
  have hways := hostGetComponent_of_read storage_singleton hread 0 (.ofNat low)
    (some bytes)
  rw [← hlow, hcap, UInt32.toNat_zero] at hways
  rcases hways with ⟨hcap', -⟩ | ⟨-, hrange, -⟩ | ⟨-, -, -, hmemory⟩
  · omega
  · exact hrange hranged
  · rw [if_neg (by omega), Option.bind_some, setData, if_pos (by omega)] at hmemory
    have hchanged := hmemory.symm.trans hsame
    have hdrop : bytes.drop (0 + low) = [] := List.drop_eq_nil_of_le (by omega)
    rw [List.take_zero, List.nil_append, hdrop, List.append_nil, hbytes] at hchanged
    have hhead := congrArg List.head? (Option.some.inj hchanged)
    have hne : data ≠ [] := by
      intro hnil
      rw [hnil, List.length_nil] at hlow
      omega
    obtain ⟨first, rest, hdata⟩ := List.exists_cons_of_ne_nil hne
    rw [List.head?_map, hdata, List.head?_take, if_neg (by omega)] at hhead
    simp at hhead

end GetCall

/-- The guests can tell the outcomes apart exactly when the sizes are apart. -/
theorem outcomes_told_apart_iff (s : ComponentStorage) : s.ToldApart ↔ s.SizesApart := by
  constructor
  · intro htold
    -- A number is the result of one outcome only.
    have hunique : ∀ {c d : GetCall}, c.code s = d.code s → c.outcome s = d.outcome s := by
      intro c d hcode
      by_contra hne
      exact htold.results c d hne (GetCall.out_eq_of_code_eq hcode)
    refine ⟨fun size hsize => ?_, ?_, ?_⟩
    · by_contra hnot
      obtain ⟨hbig, hdvd⟩ := not_or.mp hnot
      by_cases hlt : size < 2 ^ 32
      swap
      · obtain ⟨c, hlarge, hchanged⟩ := GetCall.exists_tooLarge_changed hsize (by omega) hdvd
        refine hchanged (htold.unchanged c fun size' hcopied => ?_).1
        rw [hlarge] at hcopied
        cases hcopied
      -- The size is one of the three error codes.
      obtain ⟨c, hcopied, hcode⟩ := GetCall.exists_copied hsize hlt
      obtain ⟨⟨large, hlarge, hlargeCode⟩, failing, hfailing, hfailingCode⟩ :=
        GetCall.exists_failures hsize (by omega) hlt
      have hbound : size = 2 ^ 32 - 1 ∨ size = 2 ^ 32 - 2 ∨ size = 2 ^ 32 - 3 := by omega
      rcases hbound with heq | heq | heq
      · have hsame := hunique (c := c) (d := ⟨⟨.null, 0⟩, 0, 0, 0, 0, none⟩) (hcode.trans heq)
        rw [hcopied] at hsame
        cases hsame
      · have hsame := hunique (hcode.trans (heq.trans hlargeCode.symm))
        rw [hcopied, hlarge] at hsame
        cases hsame
      · have hsame := hunique (hcode.trans (heq.trans hfailingCode.symm))
        rw [hcopied, hfailing] at hsame
        cases hsame
    · rintro ⟨objectId, type, hread⟩ size hsize hdvd
      obtain ⟨habsent, habsentCode⟩ := GetCall.absent_zero hread
      by_cases hpos : size = 0
      · subst hpos
        obtain ⟨c, hcopied, hcode⟩ := GetCall.exists_copied hsize (by omega)
        have hsame := hunique (hcode.trans habsentCode.symm)
        rw [hcopied, habsent] at hsame
        cases hsame
      · obtain ⟨c, hlarge, hcode⟩ := GetCall.exists_tooLarge_zero hsize hpos hdvd
        have hsame := hunique (hcode.trans habsentCode.symm)
        rw [hlarge, habsent] at hsame
        cases hsame
    · intro hempty size hsize hdvd
      by_contra hpos
      obtain ⟨c, hcopied, hcode⟩ := GetCall.exists_copied hempty (by omega)
      obtain ⟨large, hlarge, hlargeCode⟩ := GetCall.exists_tooLarge_zero hsize hpos hdvd
      have hsame := hunique (hcode.trans hlargeCode.symm)
      rw [hcopied, hlarge] at hsame
      cases hsame
  · intro hs
    refine ⟨fun c c' hne => ?_, fun c hnot => ⟨(c.reports_code hs).2 hnot, rfl⟩⟩
    apply GetCall.out_ne_of_code_ne
    intro hcode
    have hreports := (c.reports_code hs).1
    rw [hcode] at hreports
    exact hne (hs.reports_inj hreports (c'.reports_code hs).1)

/-- A component set to no bytes is got with the same result as one that is absent. -/
theorem empty_component_looks_absent :
    let stored := (hostSetComponent ⟨.singleton, 5⟩ 5 7 0 0 none .empty).2
    let getEmpty : GetCall := ⟨⟨.singleton, 5⟩, 5, 7, 0, 0, none⟩
    let getAbsent : GetCall := ⟨⟨.singleton, 5⟩, 5, 8, 0, 0, none⟩
    getEmpty.outcome stored = .copied 0 ∧ getAbsent.outcome stored = .absent ∧
      (getEmpty.answer stored).out = (getAbsent.answer stored).out ∧ ¬ stored.ToldApart := by
  intro stored getEmpty getAbsent
  have hempty : getEmpty.outcome stored = .copied 0 := by decide
  have habsent : getAbsent.outcome stored = .absent := by decide
  have hout : (getEmpty.answer stored).out = (getAbsent.answer stored).out := by decide
  refine ⟨hempty, habsent, hout, fun htold => htold.results getEmpty getAbsent ?_ hout⟩
  rw [hempty, habsent]
  exact fun hsame => nomatch hsame

end WasmHot
