import Mathlib.Data.Int.Order.Lemmas
import Mathlib.Data.List.Nodup
import Mathlib.Data.List.Perm.Basic
import Mathlib.Tactic.Linarith
import Mathlib.Tactic.Ring
import WasmHot.Lib.SpacedTimes
import WasmHot.Lib.Transition

/-!
# Log statements with a limit

`LOG_FIRST_N`, `LOG_ONCE`, `LOG_EVERY_N`, `LOG_EVERY_MS` and `LOG_EVERY_SEC` keep one atomic for each
place in the code. Threads pass such a place at the same time, and a thread that is to log may be
slow to call the logger, so an invocation is several steps.

An invocation is known by the values it holds. Two that hold the same values behave alike.
-/

namespace WasmHot

/-! ## Counted invocations -/

/-- One place with a `LOG_EVERY_N` or a `LOG_FIRST_N`. -/
structure CountedSite where
  /-- The static counter. -/
  counter : Int64
  /-- The counts of invocations that passed the test and have not called the logger. -/
  logging : List Int64
  /-- The counts of the invocations that called the logger, in this order. -/
  logged : List Int64
  deriving DecidableEq

/-- What a thread does at a counted place. -/
inductive CountedAction
  /-- `fetch_add`, and the test of the count that it gives. -/
  | fetchAdd
  /-- `level(__VA_ARGS__)` by the invocation with this count. -/
  | log (count : Int64)

/-- The number of invocations after an action. -/
def CountedAction.total (total : ℕ) : CountedAction → ℕ
  | .fetchAdd => total + 1
  | .log _ => total

namespace CountedSite

/-- The place before its first invocation. -/
def fresh : CountedSite := ⟨0, [], []⟩

/-- One step, where `due` is the test of the macro. -/
def step (due : Int64 → Bool) (site : CountedSite) : CountedAction → Option CountedSite
  | .fetchAdd =>
    let count := site.counter
    some { site with
      counter := site.counter + 1
      logging := if due count then count :: site.logging else site.logging }
  | .log count =>
    if count ∈ site.logging then
      some { site with
        logging := site.logging.erase count
        logged := site.logged ++ [count] }
    else none

end CountedSite

/-- The test of `LOG_EVERY_N`. -/
def logEveryN (n count : Int64) : Bool := count % n == 0

/-- The test of `LOG_FIRST_N`. -/
def logFirstN (n count : Int64) : Bool := count < n

/-- The test of `LOG_ONCE`. -/
def logOnce : Int64 → Bool := logFirstN 1

/-- The runs of a counted place, together with the number of invocations so far. -/
abbrev countedSystem (due : Int64 → Bool) : TransitionSystem (CountedSite × ℕ) CountedAction :=
  TransitionSystem.withHistory ⟨(· = CountedSite.fresh), CountedSite.step due⟩ (fun _ => 0)
    fun total _ action => action.total total

/-- The invocations that log are those whose numbers pass the test. -/
structure CountedSite.Counts (due : Int64 → Bool) (site : CountedSite) (total : ℕ) : Prop where
  counter : site.counter = Int64.ofNat total
  lines : (site.logged ++ site.logging).Perm (((List.range total).map Int64.ofNat).filter due)

theorem CountedSite.Counts.step {due : Int64 → Bool} {site site' : CountedSite} {total : ℕ}
    {action : CountedAction} (h : site.Counts due total)
    (hstep : site.step due action = some site') :
    site'.Counts due (action.total total) := by
  cases action with
  | fetchAdd =>
    cases hstep
    refine ⟨?_, ?_⟩
    · dsimp only [CountedAction.total]
      rw [h.counter, Int64.ofNat_add]
      rfl
    dsimp only [CountedAction.total]
    rw [List.range_succ, List.map_append, List.filter_append, h.counter]
    -- The new number is one of the due ones, which the invocation goes on to log, or is none of
    -- them.
    cases hdue : due (Int64.ofNat total) with
    | true =>
      have hlast : [Int64.ofNat total].filter due = [Int64.ofNat total] :=
        List.filter_eq_self.mpr (by simpa using hdue)
      rw [if_pos rfl, List.map_singleton, hlast]
      exact (List.perm_middle.trans (h.lines.cons _)).trans (List.perm_append_singleton _ _).symm
    | false =>
      have hlast : [Int64.ofNat total].filter due = [] :=
        List.filter_eq_nil_iff.mpr (by simpa using hdue)
      rw [if_neg Bool.false_ne_true, List.map_singleton, hlast, List.append_nil]
      exact h.lines
  | log count =>
    simp only [CountedSite.step, Option.ite_none_right_eq_some] at hstep
    obtain ⟨hmem, hstep⟩ := hstep
    cases hstep
    -- A line moves from those still to be logged to those that are.
    refine ⟨h.counter, List.Perm.trans ?_ h.lines⟩
    rw [List.append_assoc, List.singleton_append]
    exact (List.perm_cons_erase hmem).symm.append_left _

/-- Whatever the threads do, each number that passes the test is logged once. -/
theorem counts_of_reachable {due : Int64 → Bool} {p : CountedSite × ℕ}
    (h : (countedSystem due).Reachable p) : p.1.Counts due p.2 := by
  refine TransitionSystem.ReachWhere.invariant_withHistory
    (I := CountedSite.Counts due) h ?_ ?_
  · rintro _ rfl
    exact ⟨rfl, List.Perm.refl _⟩
  · intro site total action site' hI _ hstep
    exact hI.step hstep

/-- A count below `2 ^ 63` compares like the number of the invocation. -/
theorem logFirstN_ofNat {n k : ℕ} (hn : n < 2 ^ 63) (hk : k < 2 ^ 63) :
    logFirstN (Int64.ofNat n) (Int64.ofNat k) = decide (k < n) := by
  unfold logFirstN
  apply decide_eq_decide.mpr
  rw [Int64.lt_iff_toInt_lt, Int64.toInt_ofNat_of_lt hn, Int64.toInt_ofNat_of_lt hk]
  exact Nat.cast_lt

/-- From `2 ^ 63` on the counter is negative. -/
theorem logFirstN_wrapped {n k : ℕ} (hn : n < 2 ^ 63) (hk : 2 ^ 63 ≤ k) (hk' : k < 2 ^ 64) :
    logFirstN (Int64.ofNat n) (Int64.ofNat k) = true := by
  have hsize : Int64.size = 2 ^ 64 := rfl
  have hcount : (Int64.ofNat k).toInt = k - 2 ^ 64 := by
    rw [Int64.toInt_ofNat', hsize, Int.bmod_def]
    omega
  unfold logFirstN
  apply decide_eq_true
  rw [Int64.lt_iff_toInt_lt, Int64.toInt_ofNat_of_lt hn, hcount]
  omega

/-- The number of invocations among the first `total` that `LOG_FIRST_N` lets through. -/
theorem length_filter_firstN {n : ℕ} (hn : n < 2 ^ 63) {total : ℕ} (htotal : total ≤ 2 ^ 64) :
    (((List.range total).map Int64.ofNat).filter (logFirstN (Int64.ofNat n))).length =
      min n total + (total - 2 ^ 63) := by
  induction total with
  | zero => simp
  | succ total ih =>
    rw [List.range_succ, List.map_append, List.filter_append, List.length_append, ih (by omega),
      List.map_singleton, List.filter_singleton]
    by_cases hlow : total < 2 ^ 63
    · rw [logFirstN_ofNat hn hlow]
      by_cases hk : total < n
      · rw [decide_eq_true hk]
        simp only [cond_true, List.length_singleton]
        omega
      · rw [decide_eq_false hk]
        simp only [cond_false, List.length_nil]
        omega
    · rw [logFirstN_wrapped hn (by omega) (by omega)]
      simp only [cond_true, List.length_singleton]
      omega

/-- `LOG_FIRST_N` logs the first `n` invocations, each once, and nothing after them until the counter
has gone around half of its range; from then on it logs every one. -/
theorem first_n_logged {n : ℕ} (hn : n < 2 ^ 63) {p : CountedSite × ℕ}
    (h : (countedSystem (logFirstN (Int64.ofNat n))).Reachable p) (htotal : p.2 ≤ 2 ^ 64) :
    (p.1.logged ++ p.1.logging).length = min n p.2 + (p.2 - 2 ^ 63) ∧
      (p.1.logged ++ p.1.logging).Nodup ∧
      ∀ k < n, k < p.2 → Int64.ofNat k ∈ p.1.logged ++ p.1.logging := by
  have hlines := (counts_of_reachable h).lines
  refine ⟨?_, ?_, ?_⟩
  · rw [hlines.length_eq, length_filter_firstN hn htotal]
  · refine hlines.nodup_iff.mpr (List.filter_sublist.nodup (List.Nodup.map_on ?_ List.nodup_range))
    intro k hk k' hk' heq
    have hk := List.mem_range.mp hk
    have hk' := List.mem_range.mp hk'
    have heq := congrArg (fun count : Int64 => count.toBitVec.toNat) heq
    simp only [Int64.toBitVec_ofNat', BitVec.toNat_ofNat] at heq
    omega
  · intro k hk htotal
    refine hlines.mem_iff.mpr (List.mem_filter.mpr ⟨?_, ?_⟩)
    · exact List.mem_map_of_mem (List.mem_range.mpr htotal)
    · rw [logFirstN_ofNat hn (hk.trans hn)]
      exact decide_eq_true hk

/-- Two threads fetch their counts, and the second one is the first to log. -/
def twoLogOutOfOrder : List CountedAction := [.fetchAdd, .fetchAdd, .fetchAdd, .log 1, .log 0]

/-- `LOG_FIRST_N` with 2 logs two of three invocations, in the other order here. -/
theorem first_n_logged_outOfOrder :
    ∃ p, (countedSystem (logFirstN (Int64.ofNat 2))).run (.fresh, 0) twoLogOutOfOrder = some p ∧
      p.1.logged = [1, 0] ∧ (p.1.logged ++ p.1.logging).length = min 2 p.2 + (p.2 - 2 ^ 63) := by
  let p : CountedSite × ℕ := (⟨3, [], [1, 0]⟩, 3)
  have hrun : (countedSystem (logFirstN (Int64.ofNat 2))).run (.fresh, 0) twoLogOutOfOrder =
      some p := by decide
  refine ⟨p, hrun, rfl, ?_⟩
  have hfresh : (countedSystem (logFirstN (Int64.ofNat 2))).Reachable (.fresh, 0) :=
    .init ⟨rfl, rfl⟩
  have hreach := hfresh.of_run _ hrun
  exact (first_n_logged (n := 2) (by norm_num) hreach (by norm_num [p])).1

/-- A count below `2 ^ 63` is divided like the number of the invocation. -/
theorem logEveryN_ofNat {n k : ℕ} (hn : n < 2 ^ 63) (hk : k < 2 ^ 63) :
    logEveryN (Int64.ofNat n) (Int64.ofNat k) = decide (n ∣ k) := by
  rw [logEveryN, Bool.eq_iff_iff, beq_iff_eq, decide_eq_true_iff, ← Int64.toInt_inj,
    Int64.toInt_mod, Int64.toInt_ofNat_of_lt hn, Int64.toInt_ofNat_of_lt hk, Int64.toInt_zero,
    ← Int.ofNat_tmod, Nat.cast_eq_zero]
  exact (Nat.dvd_iff_mod_eq_zero).symm

/-- The multiples of `n` below `total`. -/
theorem filter_dvd_range {n : ℕ} (hn : 0 < n) (total : ℕ) :
    (List.range total).filter (fun k => decide (n ∣ k)) =
      (List.range ((total + n - 1) / n)).map (n * ·) := by
  induction total with
  | zero => simp [Nat.div_eq_of_lt (Nat.sub_lt hn one_pos)]
  | succ total ih =>
    rw [List.range_succ, List.filter_append, List.filter_singleton, ih]
    by_cases hdvd : n ∣ total
    · obtain ⟨m, rfl⟩ := hdvd
      have hbelow : (n * m + n - 1) / n = m := by
        have hlast : (n - 1) / n = 0 := Nat.div_eq_of_lt (by omega)
        rw [Nat.add_sub_assoc hn, Nat.mul_add_div hn, hlast, add_zero]
      have hnow : (n * m + 1 + n - 1) / n = m + 1 := by
        rw [show n * m + 1 + n - 1 = n * m + n by omega, Nat.mul_add_div hn, Nat.div_self hn]
      rw [hbelow, hnow, decide_eq_true (dvd_mul_right n m), List.range_succ, List.map_append]
      rfl
    · have hsame : (total + 1 + n - 1) / n = (total + n - 1) / n := by
        rw [show total + 1 + n - 1 = (total + n - 1) + 1 by omega, Nat.succ_div,
          if_neg ?_, add_zero]
        intro hdvd'
        rw [show total + n - 1 + 1 = total + n by omega, Nat.dvd_add_self_right] at hdvd'
        exact hdvd hdvd'
      rw [hsame, decide_eq_false hdvd]
      exact List.append_nil _

/-- `LOG_EVERY_N` logs invocations number `0`, `n`, `2 * n` and so on, each once, as long as the
counter has not gone around half of its range. -/
theorem every_n_logged {n : ℕ} (hpos : 0 < n) (hn : n < 2 ^ 63) {p : CountedSite × ℕ}
    (h : (countedSystem (logEveryN (Int64.ofNat n))).Reachable p) (htotal : p.2 ≤ 2 ^ 63) :
    (p.1.logged ++ p.1.logging).Perm
      ((List.range ((p.2 + n - 1) / n)).map fun i => Int64.ofNat (n * i)) := by
  refine (counts_of_reachable h).lines.trans (List.Perm.of_eq ?_)
  rw [List.filter_map]
  have hdue : (List.range p.2).filter (logEveryN (Int64.ofNat n) ∘ Int64.ofNat) =
      (List.range p.2).filter (fun k => decide (n ∣ k)) := by
    apply List.filter_congr
    intro k hk
    exact logEveryN_ofNat hn ((List.mem_range.mp hk).trans_le htotal)
  rw [hdue, filter_dvd_range hpos, List.map_map]
  rfl

/-- `LOG_EVERY_N` with 2 logs invocations 0 and 2. -/
theorem every_n_logged_three :
    ∃ p, (countedSystem (logEveryN (Int64.ofNat 2))).run (.fresh, 0)
        [.fetchAdd, .fetchAdd, .fetchAdd, .log 2] = some p ∧
      (p.1.logged ++ p.1.logging).Perm
        ((List.range ((p.2 + 2 - 1) / 2)).map fun i => Int64.ofNat (2 * i)) := by
  let p : CountedSite × ℕ := (⟨3, [0], [2]⟩, 3)
  have hrun : (countedSystem (logEveryN (Int64.ofNat 2))).run (.fresh, 0)
      [.fetchAdd, .fetchAdd, .fetchAdd, .log 2] = some p := by decide
  refine ⟨p, hrun, ?_⟩
  have hfresh : (countedSystem (logEveryN (Int64.ofNat 2))).Reachable (.fresh, 0) :=
    .init ⟨rfl, rfl⟩
  have hreach := hfresh.of_run _ hrun
  exact every_n_logged (n := 2) (by norm_num) (by norm_num) hreach (by norm_num [p])

/-! ## Timed invocations -/

/-- One place with a `LOG_EVERY_MS`. -/
structure TimedSite where
  /-- What `steady_clock` shows, in nanoseconds. -/
  clock : ℕ
  /-- The values that `compare_exchange_weak` has stored, the last one first. -/
  stamps : List ℤ
  /-- The times of invocations that have not loaded the atomic yet. -/
  asked : List ℤ
  /-- The times and the loaded values of invocations that have not tested them yet. -/
  loaded : List (ℤ × ℤ)
  /-- The times of invocations that passed and have not called the logger. -/
  logging : List ℤ
  /-- The times of the invocations that called the logger, in this order. -/
  logged : List ℤ
  deriving DecidableEq

/-- What happens at a timed place. -/
inductive TimedAction
  /-- So many nanoseconds pass. -/
  | pass (nanoseconds : ℕ)
  /-- `steady_clock::now`. -/
  | now
  /-- A relaxed `load`, which may give a value that has been replaced. -/
  | load (nowMs last : ℤ)
  /-- The test and the `compare_exchange_weak`, which may fail for no reason. -/
  | exchange (nowMs last : ℤ) (spurious : Bool)
  /-- `level(__VA_ARGS__)` by the invocation with this time. -/
  | log (nowMs : ℤ)

namespace TimedSite

/-- The place before its first invocation. -/
def fresh (clock : ℕ) : TimedSite := ⟨clock, [], [], [], [], []⟩

/-- `duration_cast` of the clock to milliseconds. -/
def nowMs (site : TimedSite) : ℤ := (site.clock / 1000000 : ℕ)

/-- The values the atomic has had, the present one first. -/
def values (site : TimedSite) : List ℤ := site.stamps ++ [0]

/-- One step of `LOG_EVERY_MS(level, ms, ...)`. -/
def step (ms : ℤ) (site : TimedSite) : TimedAction → Option TimedSite
  | .pass nanoseconds =>
    -- The clock counts in an `int64_t`.
    if site.clock + nanoseconds < 2 ^ 63 then
      some { site with clock := site.clock + nanoseconds }
    else none
  | .now => some { site with asked := site.nowMs :: site.asked }
  | .load nowMs last =>
    if nowMs ∈ site.asked ∧ last ∈ site.values then
      some { site with
        asked := site.asked.erase nowMs
        loaded := (nowMs, last) :: site.loaded }
    else none
  | .exchange nowMs last spurious =>
    if (nowMs, last) ∈ site.loaded then
      if ms ≤ nowMs - last ∧ site.values.head? = some last ∧ spurious = false then
        some { site with
          loaded := site.loaded.erase (nowMs, last)
          stamps := nowMs :: site.stamps
          logging := nowMs :: site.logging }
      else some { site with loaded := site.loaded.erase (nowMs, last) }
    else none
  | .log nowMs =>
    if nowMs ∈ site.logging then
      some { site with
        logging := site.logging.erase nowMs
        logged := site.logged ++ [nowMs] }
    else none

end TimedSite

/-- The runs of `LOG_EVERY_MS(level, ms, ...)`. -/
def logEveryMs (ms : ℤ) : TransitionSystem TimedSite TimedAction where
  Init site := ∃ clock < 2 ^ 63, site = .fresh clock
  step := TimedSite.step ms

/-- The runs of `LOG_EVERY_SEC(level, sec, ...)`. -/
def logEverySec (sec : ℤ) : TransitionSystem TimedSite TimedAction := logEveryMs (sec * 1000)

/-- The times that passed are spaced, and each of them is logged once. -/
structure TimedSite.Spaced (ms : ℤ) (site : TimedSite) : Prop where
  clock : site.clock < 2 ^ 63
  asked : ∀ nowMs ∈ site.asked, 0 ≤ nowMs ∧ nowMs ≤ site.nowMs
  loaded : ∀ call ∈ site.loaded, 0 ≤ call.1 ∧ call.1 ≤ site.nowMs ∧ call.2 ∈ site.values
  stamps : ∀ stamp ∈ site.stamps, 0 ≤ stamp ∧ stamp ≤ site.nowMs
  spaced : SpacedTimes ms site.values
  lines : (site.logged ++ site.logging).Perm site.stamps

namespace TimedSite.Spaced

variable {ms : ℤ} {site site' : TimedSite}

theorem pass (h : site.Spaced ms) {nanoseconds : ℕ} (hclock : site.clock + nanoseconds < 2 ^ 63) :
    ({ site with clock := site.clock + nanoseconds } : TimedSite).Spaced ms := by
  have hle : site.nowMs ≤ ({ site with clock := site.clock + nanoseconds } : TimedSite).nowMs :=
    Nat.cast_le.mpr (Nat.div_le_div_right (Nat.le_add_right _ _))
  refine ⟨hclock, ?_, ?_, ?_, h.spaced, h.lines⟩
  · exact fun nowMs hmem => ⟨(h.asked nowMs hmem).1, (h.asked nowMs hmem).2.trans hle⟩
  · intro call hmem
    obtain ⟨hpos, hnow, hvalue⟩ := h.loaded call hmem
    exact ⟨hpos, hnow.trans hle, hvalue⟩
  · exact fun stamp hmem => ⟨(h.stamps stamp hmem).1, (h.stamps stamp hmem).2.trans hle⟩

theorem now (h : site.Spaced ms) :
    ({ site with asked := site.nowMs :: site.asked } : TimedSite).Spaced ms := by
  refine ⟨h.clock, ?_, h.loaded, h.stamps, h.spaced, h.lines⟩
  intro nowMs hmem
  rcases List.mem_cons.mp hmem with rfl | hmem
  · exact ⟨Nat.cast_nonneg _, le_refl _⟩
  · exact h.asked nowMs hmem

theorem load (h : site.Spaced ms) {nowMs last : ℤ} (hasked : nowMs ∈ site.asked)
    (hlast : last ∈ site.values) :
    ({ site with
        asked := site.asked.erase nowMs
        loaded := (nowMs, last) :: site.loaded } : TimedSite).Spaced ms := by
  refine ⟨h.clock, ?_, ?_, h.stamps, h.spaced, h.lines⟩
  · exact fun nowMs' hmem => h.asked nowMs' (List.mem_of_mem_erase hmem)
  · intro call hmem
    rcases List.mem_cons.mp hmem with rfl | hmem
    · exact ⟨(h.asked nowMs hasked).1, (h.asked nowMs hasked).2, hlast⟩
    · exact h.loaded call hmem

/-- The value that the exchange replaces is the one its time was compared with. -/
theorem exchange (h : site.Spaced ms) {nowMs last : ℤ} (hcall : (nowMs, last) ∈ site.loaded)
    (hdue : ms ≤ nowMs - last) (hhead : site.values.head? = some last) :
    ({ site with
        loaded := site.loaded.erase (nowMs, last)
        stamps := nowMs :: site.stamps
        logging := nowMs :: site.logging } : TimedSite).Spaced ms := by
  obtain ⟨hpos, hnow, -⟩ := h.loaded _ hcall
  refine ⟨h.clock, h.asked, ?_, ?_, ?_, ?_⟩
  · intro call hmem
    obtain ⟨hpos, hnow, hvalue⟩ := h.loaded call (List.mem_of_mem_erase hmem)
    exact ⟨hpos, hnow, List.mem_cons_of_mem _ hvalue⟩
  · intro stamp hmem
    rcases List.mem_cons.mp hmem with rfl | hmem
    · exact ⟨hpos, hnow⟩
    · exact h.stamps stamp hmem
  · refine h.spaced.cons fun before hbefore => ?_
    cases hhead.symm.trans hbefore
    linarith
  · exact List.perm_middle.trans (h.lines.cons _)

theorem skip (h : site.Spaced ms) (call : ℤ × ℤ) :
    ({ site with loaded := site.loaded.erase call } : TimedSite).Spaced ms :=
  ⟨h.clock, h.asked, fun call' hmem => h.loaded call' (List.mem_of_mem_erase hmem), h.stamps,
    h.spaced, h.lines⟩

theorem log (h : site.Spaced ms) {nowMs : ℤ} (hmem : nowMs ∈ site.logging) :
    ({ site with
        logging := site.logging.erase nowMs
        logged := site.logged ++ [nowMs] } : TimedSite).Spaced ms := by
  refine ⟨h.clock, h.asked, h.loaded, h.stamps, h.spaced, List.Perm.trans ?_ h.lines⟩
  rw [List.append_assoc, List.singleton_append]
  exact (List.perm_cons_erase hmem).symm.append_left _

theorem step {action : TimedAction} (h : site.Spaced ms)
    (hstep : site.step ms action = some site') : site'.Spaced ms := by
  cases action with
  | pass nanoseconds =>
    obtain ⟨hclock, hstep⟩ := Option.ite_none_right_eq_some.mp hstep
    cases hstep
    exact h.pass hclock
  | now =>
    cases hstep
    exact h.now
  | load nowMs last =>
    obtain ⟨⟨hasked, hlast⟩, hstep⟩ := Option.ite_none_right_eq_some.mp hstep
    cases hstep
    exact h.load hasked hlast
  | exchange nowMs last spurious =>
    obtain ⟨hcall, hstep⟩ := Option.ite_none_right_eq_some.mp hstep
    split at hstep
    · rename_i hdue
      cases hstep
      exact h.exchange hcall hdue.1 hdue.2.1
    · cases hstep
      exact h.skip _
  | log nowMs =>
    obtain ⟨hmem, hstep⟩ := Option.ite_none_right_eq_some.mp hstep
    cases hstep
    exact h.log hmem

end TimedSite.Spaced

theorem spaced_of_reachable {ms : ℤ} {site : TimedSite} (h : (logEveryMs ms).Reachable site) :
    site.Spaced ms := by
  refine h.invariant ?_ fun site action site' hI _ hstep => hI.step hstep
  rintro _ ⟨clock, hclock, rfl⟩
  exact ⟨hclock, nofun, nofun, nofun, .singleton 0, List.Perm.refl _⟩

namespace TimedSite.Spaced

variable {ms : ℤ} {site : TimedSite}

/-- Nothing is logged in the first milliseconds of the clock. -/
theorem ms_le (h : site.Spaced ms) (hms : 0 ≤ ms) {stamp : ℤ} (hstamp : stamp ∈ site.stamps) :
    ms ≤ stamp := by
  have hzero := (List.pairwise_append.mp (h.spaced.pairwise hms)).2.2 stamp hstamp 0 List.mem_cons_self
  linarith

end TimedSite.Spaced

/-- However many threads pass the place, however old the values that they load, no window of
milliseconds holds more lines of `LOG_EVERY_MS` than fit into it `ms` apart. A line counts at the time
that its invocation has read, which is before the logger is called. -/
theorem every_ms_window {ms : ℤ} (hms : 0 < ms) {site : TimedSite}
    (h : (logEveryMs ms).Reachable site) {start stop : ℤ} (hwindow : start ≤ stop) :
    (((site.logged ++ site.logging).countP
        fun time => decide (start ≤ time ∧ time < stop) : ℕ) : ℤ) * ms < stop - start + ms ∧
      ∀ time ∈ site.logged ++ site.logging, ms ≤ time ∧ time ≤ site.nowMs := by
  have hspaced := spaced_of_reachable h
  rw [hspaced.lines.countP_eq]
  refine ⟨?_, fun time hmem => ?_⟩
  · have hstamps : SpacedTimes ms site.stamps := List.IsChain.left_of_append hspaced.spaced
    have hcount := hstamps.window hms hwindow
    rw [nsmul_eq_mul] at hcount
    linarith
  have hstamp := hspaced.lines.mem_iff.mp hmem
  exact ⟨hspaced.ms_le hms.le hstamp, (hspaced.stamps time hstamp).2⟩

/-- Two threads find the place due at once. The exchange lets one of them log. -/
def twoFindItDue : List TimedAction :=
  [.now, .now, .load 5000 0, .load 5000 0, .exchange 5000 0 false, .exchange 5000 0 false,
    .log 5000]

theorem every_ms_window_twoFindItDue :
    ∃ site, (logEveryMs 1000).run (.fresh 5000000000) twoFindItDue = some site ∧
      site.logged = [5000] ∧
      (((site.logged ++ site.logging).countP
        fun time => decide (0 ≤ time ∧ time < 6000) : ℕ) : ℤ) * 1000 < 6000 - 0 + 1000 := by
  let site : TimedSite := ⟨5000000000, [5000], [], [], [], [5000]⟩
  have hrun : (logEveryMs 1000).run (.fresh 5000000000) twoFindItDue = some site := by
    decide
  refine ⟨site, hrun, rfl, ?_⟩
  have hfresh : (logEveryMs 1000).Reachable (.fresh 5000000000) :=
    .init ⟨5000000000, by norm_num, rfl⟩
  have hreach := hfresh.of_run _ hrun
  exact (every_ms_window (by norm_num) hreach (by norm_num)).1

/-- An invocation that loads the present value and whose exchange does not fail for no reason logs,
if the last line is `ms` old. -/
theorem undisturbed_logs {ms last : ℤ} {site : TimedSite} (hlast : site.values.head? = some last)
    (hdue : ms ≤ site.nowMs - last) :
    (logEveryMs ms).run site
        [.now, .load site.nowMs last, .exchange site.nowMs last false, .log site.nowMs] =
      some { site with
        stamps := site.nowMs :: site.stamps
        logged := site.logged ++ [site.nowMs] } := by
  have hvalue : last ∈ site.values := List.mem_of_mem_head? hlast
  refine Option.bind_eq_some_iff.mpr ⟨_, rfl, ?_⟩
  refine Option.bind_eq_some_iff.mpr ⟨_, if_pos ⟨List.mem_cons_self, hvalue⟩, ?_⟩
  refine Option.bind_eq_some_iff.mpr
    ⟨_, (if_pos List.mem_cons_self).trans (if_pos ⟨hdue, hlast, rfl⟩), ?_⟩
  refine Option.bind_eq_some_iff.mpr ⟨_, if_pos List.mem_cons_self, ?_⟩
  simp only [TransitionSystem.run, List.erase_cons_head]

end WasmHot
