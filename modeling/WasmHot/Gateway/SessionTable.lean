import WasmHot.Gateway.ReadLoop

/-!
# The table of sessions

`DoAccept` gives each session the next number, puts it into `sessions_` and starts its read chain.
The read chain and the write chain take it out again when they close it, each on its own and perhaps
both of them. `Gateway::Send` looks a session up by its number.

The numbers come from a `uint64_t`, so the first `2 ^ 64` sessions have different ones. Up to there
the table holds exactly the sessions that are open (`sessions_open`).
-/

namespace WasmHot

variable {η : Type*}

/-- No read and no write of the session has closed it. -/
def Session.Open (session : Session η) : Prop :=
  session.read ≠ .reading .stopped ∧ session.writer.failed = false

/-- Sessions are numbered from 1 in the order in which they were accepted. -/
def sessionNumber (ref : SessionRef) : UInt64 := UInt64.ofNat (ref + 1)

/-- The first `2 ^ 64` numbers are different. -/
theorem sessionNumber_inj {ref ref' : ℕ} (href : ref < 2 ^ 64) (href' : ref' < 2 ^ 64)
    (heq : sessionNumber ref = sessionNumber ref') : ref = ref' := by
  have hnat := congrArg UInt64.toNat heq
  simp only [sessionNumber, UInt64.toNat_ofNat'] at hnat
  omega

namespace Gateway

variable {g g' : Gateway η} {ref : SessionRef} {session session' : Session η}

/-- Every session has the number of its place, and the next one gets the next number. -/
structure Numbered (g : Gateway η) : Prop where
  next : g.nextSessionId = sessionNumber g.objects.length
  sessions : ∀ (ref : SessionRef) (session : Session η), g.objects[ref]? = some session →
    session.sessionId = sessionNumber ref

/-- The table leads to the open sessions. -/
def HoldsOpen (g : Gateway η) : Prop :=
  ∀ id ref, g.sessions.lookup id = some ref ↔
    ∃ session : Session η, g.objects[ref]? = some session ∧ session.sessionId = id ∧ session.Open

theorem Numbered.set (h : g.Numbered) (hsession : g.objects[ref]? = some session)
    (hid : session'.sessionId = session.sessionId)
    (hobjects : g'.objects = g.objects.set ref session')
    (hnext : g'.nextSessionId = g.nextSessionId) : g'.Numbered := by
  refine ⟨by rw [hnext, h.next, hobjects, List.length_set], fun i s hs => ?_⟩
  rw [hobjects, List.getElem?_set] at hs
  split at hs
  · next href =>
    subst href
    obtain ⟨hlt, -⟩ := List.getElem?_eq_some_iff.mp hsession
    rw [if_pos hlt] at hs
    cases hs
    rw [hid]
    exact h.sessions _ _ hsession
  · exact h.sessions i s hs

theorem Numbered.accept (h : g.Numbered) : g.accept.Numbered := by
  constructor
  · simp only [Gateway.accept, h.next, sessionNumber, List.length_append, List.length_singleton,
      UInt64.ofNat_add]
    rfl
  · intro ref session hsession
    simp only [Gateway.accept, List.getElem?_append, List.getElem?_singleton] at hsession
    split_ifs at hsession with hlt hzero
    · exact h.sessions ref session hsession
    · cases hsession
      rw [h.next, Nat.le_antisymm (Nat.le_of_not_lt hlt) (Nat.le_of_sub_eq_zero hzero)]

/-! ## What a step does to the table -/

/-- A session changes and is as open as it was. -/
structure Keeps (g g' : Gateway η) (ref : SessionRef) (session session' : Session η) : Prop where
  objects : g'.objects = g.objects.set ref session'
  sessions : g'.sessions = g.sessions
  next : g'.nextSessionId = g.nextSessionId
  id : session'.sessionId = session.sessionId
  open_iff : session'.Open ↔ session.Open

/-- A session closes. -/
structure Closes (g g' : Gateway η) (ref : SessionRef) (session session' : Session η) : Prop where
  objects : g'.objects = g.objects.set ref session'
  sessions : g'.sessions = g.sessions.erase session.sessionId
  next : g'.nextSessionId = g.nextSessionId
  id : session'.sessionId = session.sessionId
  not_open : ¬ session'.Open

/-- A read chain that goes on leaves the session as open as it was. -/
theorem Keeps.update_read (hread : session.read ≠ .reading .stopped) {read : ReadChain η}
    (hread' : read ≠ .reading .stopped) :
    g.Keeps (g.update ref { session with read }) ref session { session with read } where
  objects := rfl
  sessions := rfl
  next := rfl
  id := rfl
  open_iff := and_congr_left fun _ => iff_of_true hread' hread

/-- An event of a session keeps it as open as it was, or closes it. -/
theorem keeps_or_closes {e : SessionEvent} (h : g.sessionStep ref session e = some g') :
    ∃ session', g.Keeps g' ref session session' ∨ g.Closes g' ref session session' := by
  cases e with
  | readDone bytes =>
    rcases readDone_eq h with ⟨hread, rfl⟩ | ⟨length, hread, rfl⟩
    · unfold headerDone
      split
      -- The header has a length that is not read, which closes the session.
      · exact ⟨_, .inr ⟨rfl, rfl, rfl, rfl, fun hopen => hopen.1 rfl⟩⟩
      · next next hnext =>
        refine ⟨_, .inl (.update_read (by rw [hread]; nofun) fun hstop => ?_)⟩
        exact hnext (ReadChain.reading.inj hstop)
    · unfold bodyDone
      split
      · exact ⟨_, .inl (.update_read (by rw [hread]; nofun) nofun)⟩
      · exact ⟨_, .inl (.update_read (by rw [hread]; nofun) nofun)⟩
  | readFailed =>
    rw [readFailed_eq h]
    exact ⟨_, .inr ⟨rfl, rfl, rfl, rfl, fun hopen => hopen.1 rfl⟩⟩
  | callHandler =>
    obtain ⟨handler, msg, hread, rfl⟩ := callHandler_eq h
    have hkeeps : g.Keeps (g.update ref { session with read := .running }) ref session
        { session with read := .running } :=
      .update_read (by rw [hread]; nofun) nofun
    exact ⟨_, .inl ⟨hkeeps.objects, hkeeps.sessions, hkeeps.next, hkeeps.id, hkeeps.open_iff⟩⟩
  | handlerReturned =>
    obtain ⟨hread, rfl⟩ := handlerReturned_eq h
    exact ⟨_, .inl (.update_read (by rw [hread]; nofun) nofun)⟩
  -- A write that fails closes the session, any other access of the writer does not.
  | write a =>
    obtain ⟨writer, hwriter, ⟨hfails, rfl⟩ | ⟨hgoes, rfl⟩⟩ := write_eq h
    · have hfailed := (SessionThreads.failed_iff hwriter).mpr (.inr hfails)
      refine ⟨_, .inr ⟨rfl, rfl, rfl, rfl, fun hopen => ?_⟩⟩
      exact Bool.false_ne_true (hopen.2.symm.trans hfailed)
    · have hfailed : writer.failed = session.writer.failed := by
        rw [Bool.eq_iff_iff, SessionThreads.failed_iff hwriter]
        exact or_iff_left hgoes
      refine ⟨_, .inl ⟨rfl, rfl, rfl, rfl, and_congr_right fun _ => ?_⟩⟩
      rw [hfailed]

/-- A session that is as open as it was leaves the table right. -/
theorem HoldsOpen.keeps (h : g.HoldsOpen) (hsession : g.objects[ref]? = some session)
    (hkeeps : g.Keeps g' ref session session') : g'.HoldsOpen := by
  obtain ⟨hlt, -⟩ := List.getElem?_eq_some_iff.mp hsession
  intro id i
  rw [hkeeps.sessions, h id i, hkeeps.objects]
  by_cases hi : i = ref
  · subst hi
    simp only [hsession, List.getElem?_set_self hlt, Option.some.injEq, exists_eq_left',
      hkeeps.id, hkeeps.open_iff]
  · rw [List.getElem?_set_ne (Ne.symm hi)]

/-- A session that closes is taken out, and no other has its number. -/
theorem HoldsOpen.closes (h : g.HoldsOpen) (hnumbered : g.Numbered)
    (hcount : g.objects.length ≤ 2 ^ 64) (hsession : g.objects[ref]? = some session)
    (hcloses : g.Closes g' ref session session') : g'.HoldsOpen := by
  obtain ⟨hlt, -⟩ := List.getElem?_eq_some_iff.mp hsession
  intro id i
  rw [hcloses.sessions, UnorderedMap.lookup_erase, hcloses.objects]
  by_cases hi : i = ref
  · subst hi
    -- Whatever the entry under the number was, this session has none now.
    have hnot : ¬ (if id = session.sessionId then none else g.sessions.lookup id) = some i := by
      split
      · nofun
      · next hne =>
        rw [h id i]
        rintro ⟨s, hs, rfl, -⟩
        cases hsession.symm.trans hs
        exact hne rfl
    refine iff_of_false hnot ?_
    rintro ⟨s, hs, -, hopen⟩
    rw [List.getElem?_set_self hlt] at hs
    cases hs
    exact hcloses.not_open hopen
  · rw [List.getElem?_set_ne (Ne.symm hi)]
    split
    · next hid =>
      refine iff_of_false nofun ?_
      rintro ⟨s, hs, hsid, -⟩
      obtain ⟨hilt, -⟩ := List.getElem?_eq_some_iff.mp hs
      -- An entry that goes with it would be of a session with the same number, and so the same
      -- session.
      have hsame : sessionNumber i = sessionNumber ref := by
        rw [← hnumbered.sessions i s hs, ← hnumbered.sessions ref session hsession, hsid, hid]
      exact hi (sessionNumber_inj (hilt.trans_le hcount) (hlt.trans_le hcount) hsame)
    · exact h id i

/-- A new session gets a number that no other has. -/
theorem HoldsOpen.accept (h : g.HoldsOpen) (hnumbered : g.Numbered)
    (hcount : g.objects.length < 2 ^ 64) : g.accept.HoldsOpen := by
  intro id i
  simp only [Gateway.accept, UnorderedMap.lookup_insert, List.getElem?_append,
    List.getElem?_singleton]
  -- An old session keeps its entry, since the new number is not its own before 2^64 sessions.
  by_cases hlt : i < g.objects.length
  · rw [if_pos hlt]
    split
    · next hid =>
      refine iff_of_false (fun hi => ?_) ?_
      · cases hi
        exact Nat.lt_irrefl _ hlt
      · rintro ⟨s, hs, hsid, -⟩
        have hsame : sessionNumber i = sessionNumber g.objects.length := by
          rw [← hnumbered.sessions i s hs, ← hnumbered.next, hsid, hid]
        exact hlt.ne (sessionNumber_inj (hlt.trans hcount) hcount hsame)
    · exact h id i
  · rw [if_neg hlt]
    by_cases hi : i = g.objects.length
    · subst hi
      -- The table had no entry for the new session, which was not there.
      have hold : g.sessions.lookup id ≠ some g.objects.length := by
        rw [Ne, h id]
        rintro ⟨s, hs, -⟩
        exact hlt (List.getElem?_eq_some_iff.mp hs).1
      simp only [Nat.sub_self, if_true, Option.some.injEq, exists_eq_left']
      constructor
      · intro hid
        split at hid
        · next hid' => exact ⟨hid'.symm, by simp, rfl⟩
        · exact absurd hid hold
      · rintro ⟨hid, -⟩
        rw [if_pos hid.symm]
    · have hzero : ¬ i - g.objects.length = 0 := fun hzero =>
        hi (Nat.le_antisymm (Nat.le_of_sub_eq_zero hzero) (Nat.le_of_not_lt hlt))
      rw [if_neg hzero]
      refine iff_of_false (fun hid => ?_) (by rintro ⟨s, hs, -⟩; cases hs)
      split at hid
      · cases hid
        exact hi rfl
      · obtain ⟨s, hs, -⟩ := (h id i).mp hid
        exact hlt (List.getElem?_eq_some_iff.mp hs).1

/-- No step forgets a session object. -/
theorem length_objects_le {a : GatewayAction η} (h : g.step a = some g') :
    g.objects.length ≤ g'.objects.length := by
  cases a with
  | accept =>
    cases h
    simp only [Gateway.accept, List.length_append]
    exact Nat.le_add_right _ _
  | registerHandler msgType handler =>
    cases h
    exact le_refl _
  | findSession t sessionId msg =>
    obtain ⟨sending, rfl⟩ := findSession_eq h
    exact le_refl _
  | post t =>
    obtain ⟨ref, session, m, -, rfl⟩ := post_eq h
    exact (List.length_set ..).ge
  | session ref e =>
    obtain ⟨session, hsession, h⟩ := Option.bind_eq_some_iff.mp h
    obtain ⟨⟨session', hobjects, -⟩, -⟩ := sessionStep_spec h
    rw [hobjects, List.length_set]

theorem Numbered.step {a : GatewayAction η} (hnumbered : g.Numbered) (h : g.step a = some g') :
    g'.Numbered := by
  cases a with
  | accept =>
    cases h
    exact hnumbered.accept
  | registerHandler msgType handler =>
    cases h
    exact ⟨hnumbered.next, hnumbered.sessions⟩
  | findSession t sessionId msg =>
    obtain ⟨sending, rfl⟩ := findSession_eq h
    exact ⟨hnumbered.next, hnumbered.sessions⟩
  | post t =>
    obtain ⟨ref, session, m, hsession, rfl⟩ := post_eq h
    refine hnumbered.set hsession ?_ rfl rfl
    rfl
  | session ref e =>
    obtain ⟨session, hsession, h⟩ := Option.bind_eq_some_iff.mp h
    obtain ⟨session', hkeeps | hcloses⟩ := keeps_or_closes h
    · exact hnumbered.set hsession hkeeps.id hkeeps.objects hkeeps.next
    · exact hnumbered.set hsession hcloses.id hcloses.objects hcloses.next

theorem HoldsOpen.step {a : GatewayAction η} (hopen : g.HoldsOpen) (hnumbered : g.Numbered)
    (hcount : g'.objects.length ≤ 2 ^ 64) (h : g.step a = some g') : g'.HoldsOpen := by
  have hbefore := (length_objects_le h).trans hcount
  cases a with
  | accept =>
    cases h
    refine hopen.accept hnumbered ?_
    simp only [Gateway.accept, List.length_append, List.length_singleton] at hcount
    omega
  | registerHandler msgType handler =>
    cases h
    exact hopen
  | findSession t sessionId msg =>
    obtain ⟨sending, rfl⟩ := findSession_eq h
    exact hopen
  | post t =>
    obtain ⟨ref, session, m, hsession, rfl⟩ := post_eq h
    have hkeeps : g.Keeps (g.update ref { session with writer := session.writer.post m }) ref session
        { session with writer := session.writer.post m } := ⟨rfl, rfl, rfl, rfl, Iff.rfl⟩
    exact (hopen.keeps hsession hkeeps :)
  | session ref e =>
    obtain ⟨session, hsession, h⟩ := Option.bind_eq_some_iff.mp h
    obtain ⟨session', hkeeps | hcloses⟩ := keeps_or_closes h
    · exact hopen.keeps hsession hkeeps
    · exact hopen.closes hnumbered hbefore hsession hcloses

end Gateway

theorem numbered_of_reachable {g : Gateway η} (h : (gatewaySystem η).Reachable g) : g.Numbered := by
  refine h.invariant ?_ fun g a g' hI _ hstep => hI.step hstep
  rintro g rfl
  exact ⟨rfl, fun _ _ => nofun⟩

theorem holdsOpen_of_reachable {g : Gateway η} (h : (gatewaySystem η).Reachable g)
    (hcount : g.objects.length ≤ 2 ^ 64) : g.HoldsOpen := by
  have hboth : g.Numbered ∧ (g.objects.length ≤ 2 ^ 64 → g.HoldsOpen) := by
    refine h.invariant (I := fun g => g.Numbered ∧ (g.objects.length ≤ 2 ^ 64 → g.HoldsOpen)) ?_ ?_
    · rintro g rfl
      refine ⟨⟨rfl, fun _ _ => nofun⟩, fun _ id ref => ?_⟩
      exact iff_of_false nofun (by rintro ⟨_, hs, -⟩; cases hs)
    · rintro g a g' ⟨hnumbered, hopen⟩ - hstep
      refine ⟨hnumbered.step hstep, fun hcount => ?_⟩
      have hbefore := (Gateway.length_objects_le hstep).trans hcount
      exact (hopen hbefore).step hnumbered hcount hstep
  exact hboth.2 hcount

/-- However the reads, writes, sends and handlers of the sessions interleave, as long as no more
than `2 ^ 64` sessions were accepted, different sessions have different numbers and `sessions_` holds
exactly those that neither of their chains has closed. -/
theorem sessions_open {g : Gateway η} (h : (gatewaySystem η).Reachable g)
    (hcount : g.objects.length ≤ 2 ^ 64) :
    (∀ id ref, g.sessions.lookup id = some ref ↔
      ∃ session : Session η, g.objects[ref]? = some session ∧ session.sessionId = id ∧
        session.Open) ∧
    ∀ (ref ref' : SessionRef) (session session' : Session η), g.objects[ref]? = some session →
      g.objects[ref']? = some session' → session.sessionId = session'.sessionId → ref = ref' := by
  constructor
  · exact holdsOpen_of_reachable h hcount
  · intro ref ref' session session' hsession hsession' heq
    have hnumbered := numbered_of_reachable h
    rw [hnumbered.sessions ref session hsession, hnumbered.sessions ref' session' hsession'] at heq
    obtain ⟨hlt, -⟩ := List.getElem?_eq_some_iff.mp hsession
    obtain ⟨hlt', -⟩ := List.getElem?_eq_some_iff.mp hsession'
    exact sessionNumber_inj (hlt.trans_le hcount) (hlt'.trans_le hcount) heq

/-- Of three sessions, one gets a length that is too short and one loses a write. -/
def twoOfThreeClose : List (GatewayAction ℕ) :=
  sendWhileReading ++ [.accept, .accept, .session 0 (.write (.writeFailed 0)),
    .session 1 (.readDone [3, 0, 0, 0])]

/-- `sessions_` holds the third one, although the first one still reads. -/
theorem sessions_open_twoOfThreeClose :
    ∃ g, (gatewaySystem ℕ).run .initial twoOfThreeClose = some g ∧
      g.objects.map (fun session => session.read) =
        [.reading (.body ⟨4, by decide⟩), .reading .stopped, .reading .header] ∧
      ∀ id ref, g.sessions.lookup id = some ref ↔
        ∃ session : Session ℕ, g.objects[ref]? = some session ∧ session.sessionId = id ∧
          session.Open := by
  have hinitial : (gatewaySystem ℕ).Reachable .initial := .init rfl
  refine ⟨_, rfl, rfl, (sessions_open (hinitial.of_run twoOfThreeClose rfl) ?_).1⟩
  exact show 3 ≤ 2 ^ 64 by decide

end WasmHot
