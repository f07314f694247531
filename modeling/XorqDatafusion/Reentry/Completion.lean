import XorqDatafusion.Reentry.Runtime
import Mathlib.Algebra.Ring.Nat

/-! Queries run from within queries never start a runtime within a runtime, and come to their end. -/
namespace XorqDatafusion.Reentry

open Transition

variable {r : Runtime} {s t : State} {a a' b : Activity} {spawned : List Activity} {i j m n : ℕ}
  {k : Kind} {core handed : Bool} {stack rest : List Frame} {ctx outer : Context}

/-- A thread that has entered the runtime has a handle, and a task always has one. -/
def Kind.Admits (k : Kind) (ctx : Context) : Prop :=
  (ctx.entered = true → ctx.current = true) ∧ (k = .task → ctx.current = true)

theorem Kind.admits_context (k : Kind) : k.Admits k.context := by
  cases k <;> simp [Admits, context]

/-- Within the runtime `wait_for_future` leaves it first, whatever its thread is doing. -/
theorem waitForFuture_eq (h : k.Admits ctx) : waitForFuture ctx = .ok (⟨true, true⟩, ctx.current) := by
  obtain ⟨entered, current⟩ := ctx
  cases current with
  | true => rfl
  | false =>
    cases entered with
    | true => cases h.1 rfl
    | false => rfl

/-- The calls of a thread or task. Python code is at the bottom of a thread and a future at the bottom
of a task; within a `block_on` there is no core, and `handed` tells whether there was one outside. -/
inductive Layered (k : Kind) : Bool → List Frame → Prop
  | done : Layered k false []
  | task {awaiting : Option ℕ} {fut : Future} {outer : Context} {core handed : Bool} (hk : k = .task) :
      Layered k core [.future awaiting fut outer handed]
  | thread {joining : Option ℕ} {code : PyCode} (hk : k ≠ .task) :
      Layered k false [.python joining code]
  | attach {joining : Option ℕ} {code : PyCode} {next : Future} {outer : Context}
      {core handed : Bool} {rest : List Frame}
      (h : Layered k core (.future none next outer handed :: rest)) :
      Layered k core (.python joining code :: .future none next outer handed :: rest)
  | block {awaiting : Option ℕ} {fut : Future} {next : PyCode} {outer : Context} {handed : Bool}
      {rest : List Frame} (ho : k.Admits outer) (h : Layered k handed (.python none next :: rest)) :
      Layered k false (.future awaiting fut outer handed :: .python none next :: rest)

/-- Only tasks have a core. -/
theorem Layered.kind (h : Layered k core stack) (hc : core = true) : k = .task := by
  induction h with
  | done | thread | block => cases hc
  | task hk => exact hk
  | attach _ ih => exact ih hc

theorem Layered.coreless (h : Layered k core stack) : Layered k false stack := by
  induction h with
  | done => exact .done
  | task hk => exact .task hk
  | thread hk => exact .thread hk
  | attach _ ih => exact .attach ih
  | block ho h _ => exact .block ho h

theorem Layered.core_eq_false (h : Layered k core []) : core = false := by
  cases h
  rfl

/-- What a future does in a `block_on` is its own affair. -/
theorem Layered.poll {awaiting awaiting' : Option ℕ} {fut fut' : Future}
    (h : Layered k core (.future awaiting fut outer handed :: rest)) :
    Layered k core (.future awaiting' fut' outer handed :: rest) := by
  cases h with
  | task hk => exact .task hk
  | block ho h => exact .block ho h

theorem Layered.run {joining joining' : Option ℕ} {code code' : PyCode}
    (h : Layered k core (.python joining code :: rest)) :
    Layered k core (.python joining' code' :: rest) := by
  cases h with
  | thread hk => exact .thread hk
  | attach h => exact .attach h

/-- When `block_on` returns there is Python code to go on with. -/
theorem Layered.resume {awaiting : Option ℕ} {fut : Future} {frame : Frame}
    (h : Layered k core (.future awaiting fut outer handed :: frame :: rest)) :
    k.Admits outer ∧ Layered k handed (frame :: rest) := by
  cases h with
  | block ho h => exact ⟨ho, h⟩

theorem Layered.ret {code : PyCode} {joining : Option ℕ}
    (h : Layered k core (.python joining code :: rest)) : Layered k core rest := by
  cases h with
  | thread => exact .done
  | attach h => exact h

/-- The activities a call waits for. -/
def Frame.ids : Frame → List ℕ
  | .future awaiting _ _ _ => awaiting.toList
  | .python joining _ => joining.toList

/-- All that is waited for was spawned later. -/
def Later (i n : ℕ) (stack : List Frame) : Prop := ∀ frame ∈ stack, ∀ id ∈ frame.ids, i < id ∧ id < n

theorem later_cons {frame : Frame} :
    Later i n (frame :: rest) ↔ (∀ id ∈ frame.ids, i < id ∧ id < n) ∧ Later i n rest :=
  List.forall_mem_cons

theorem Later.mono (h : Later i n stack) (hn : n ≤ m) : Later i m stack := by
  intro frame hf id hid
  obtain ⟨hi, hlt⟩ := h frame hf id hid
  exact ⟨hi, by omega⟩

/-- What is true of the `i`-th of `n` activities at any time. -/
structure Activity.Sound (i n : ℕ) (a : Activity) : Prop where
  layered : Layered a.kind a.core a.stack
  admits : a.kind.Admits a.ctx
  seated : a.seated = true → a.stack ≠ []
  unseated : a.seated = false → a.core = false ∧ a.stack.length ≤ 1
  gil : a.gil = true → a.seated = true ∧ ∃ joining code rest, a.stack = .python joining code :: rest
  later : Later i n a.stack
  calm : a.panic = none

theorem Activity.Sound.mono (h : a.Sound i n) (hn : n ≤ m) : a.Sound i m where
  layered := h.layered
  admits := h.admits
  seated := h.seated
  unseated := h.unseated
  gil := h.gil
  later := h.later.mono hn
  calm := h.calm

theorem Activity.sound_ofTask (fut : Future) (i n : ℕ) : (ofTask fut).Sound i n where
  layered := .task rfl
  admits := Kind.admits_context _
  seated := nofun
  unseated _ := ⟨rfl, le_rfl⟩
  gil := nofun
  later := by simp [Later, ofTask, Frame.ids]
  calm := rfl

theorem Activity.sound_ofCall (own : Bool) (call : PyCode) (i n : ℕ) : (ofCall own call).Sound i n where
  layered := .thread (by cases own <;> simp [ofCall])
  admits := by cases own <;> exact Kind.admits_context _
  seated := nofun
  unseated _ := ⟨rfl, le_rfl⟩
  gil := nofun
  later := by simp [Later, ofCall, Frame.ids]
  calm := rfl

theorem pending_ids {joining awaiting : Option ℕ} {code next : PyCode} {fut : Future}
    (h : PyCode.pending joining code = some (awaiting, fut, next)) : awaiting = joining := by
  unfold PyCode.pending at h
  split at h
  · cases h
    rfl
  · cases h
    rfl
  · cases h

theorem Activity.Sound.gil_eq_false {awaiting : Option ℕ} {fut : Future} (h : a.Sound i n)
    (hst : a.stack = .future awaiting fut outer handed :: rest) : a.gil = false := by
  by_contra hg
  obtain ⟨-, joining, code, rest', hst'⟩ := h.gil (by simpa using hg)
  rw [hst] at hst'
  cases hst'

/-- A task that a worker takes on has its future alone. -/
theorem Activity.Sound.seat (h : a.Sound i n) (hs : a.seated = false) (hne : a.stack ≠ []) :
    Layered a.kind (a.kind == .task) a.stack := by
  obtain ⟨hcore, hlen⟩ := h.unseated hs
  have hlay := h.layered
  rw [hcore] at hlay
  generalize a.stack = stack at hlay hlen hne
  generalize a.kind = k at hlay
  cases hlay with
  | done => exact absurd rfl hne
  | task hk => exact .task hk
  | thread hk =>
    rw [beq_false_of_ne hk]
    exact .thread hk
  | attach | block => simp at hlen

/-- What an activity does keeps it sound. -/
theorem Move.sound (hm : Move r s a a' spawned) (h : a.Sound i s.length) (hi : i < s.length) :
    a'.Sound i (s.length + spawned.length) := by
  have hlay := h.layered
  have hlater := h.later
  cases hm with
  | seat hs hne ha hroom =>
    refine ⟨h.seat hs hne, Kind.admits_context _, fun _ => hne, nofun, ?_, hlater, h.calm⟩
    intro hg
    exact ⟨rfl, (h.gil hg).2⟩
  | suspend hst hs hid =>
    refine ⟨hlay.coreless, h.admits, nofun, fun _ => ⟨rfl, by simp [hst]⟩, ?_, hlater, h.calm⟩
    intro hg
    cases (h.gil_eq_false hst).symm.trans hg
  | wake hst hid =>
    rw [hst, later_cons] at hlater
    rw [hst] at hlay
    refine ⟨hlay.poll, h.admits, by simp, ?_, ?_, later_cons.mpr ⟨nofun, hlater.2⟩, h.calm⟩
    · simpa [hst] using h.unseated
    · intro hg
      cases (h.gil_eq_false hst).symm.trans hg
  | spawn hst hs | pull hst hs =>
    rw [hst, later_cons] at hlater
    rw [hst] at hlay
    refine ⟨hlay.poll, h.admits, by simp, by simp [hs], ?_, later_cons.mpr ⟨?_, ?_⟩, h.calm⟩
    · intro hg
      cases (h.gil_eq_false hst).symm.trans hg
    · simpa [Frame.ids] using hi
    · exact hlater.2.mono (Nat.le_add_right _ _)
  | attach hst hs hfree =>
    rw [hst, later_cons] at hlater
    rw [hst] at hlay
    refine ⟨.attach hlay.poll, h.admits, by simp, by simp [hs], fun _ => ⟨hs, _, _, _, rfl⟩, ?_, h.calm⟩
    exact later_cons.mpr ⟨nofun, later_cons.mpr ⟨nofun, hlater.2⟩⟩
  | finish hst hs =>
    refine ⟨.done, h.admits, nofun, fun _ => ⟨rfl, Nat.zero_le _⟩, ?_, nofun, h.calm⟩
    intro hg
    cases (h.gil_eq_false hst).symm.trans hg
  | @resume _ handed core _ _ hst hs hcore =>
    rw [hst, later_cons] at hlater
    rw [hst] at hlay
    obtain ⟨ho, hrest⟩ := hlay.resume
    refine ⟨?_, ho, by simp, by simp [hs], ?_, hlater.2, h.calm⟩
    · cases core with
      | false => exact hrest.coreless
      | true =>
        rw [(hcore rfl).1] at hrest
        exact hrest
    · intro hg
      cases (h.gil_eq_false hst).symm.trans hg
  | takeGil hst hs hg hfree =>
    exact ⟨hlay, h.admits, h.seated, h.unseated, fun _ => ⟨hs, _, _, _, hst⟩, hlater, h.calm⟩
  | executeStream hst hs hg =>
    rw [hst, later_cons] at hlater
    rw [hst] at hlay
    refine ⟨hlay.run, h.admits, by simp, by simp [hs], fun _ => ⟨hs, _, _, _, rfl⟩, ?_, h.calm⟩
    refine later_cons.mpr ⟨?_, hlater.2.mono (Nat.le_add_right _ _)⟩
    simpa [Frame.ids] using hi
  | wait hst hp hs hg hw =>
    obtain rfl := pending_ids hp
    rw [hst, later_cons] at hlater
    rw [waitForFuture_eq h.admits] at hw
    cases hw
    -- Without a handle there was no core to hand back.
    have hcore : a.core = true → a.ctx.current = true := fun hc => h.admits.2 (hlay.kind hc)
    have hgone : (!a.ctx.current && a.core) = false := by
      cases hc : a.core with
      | false => simp
      | true => simp [hcore hc]
    have hhanded : (a.ctx.current && a.core) = a.core := by
      cases hc : a.core with
      | false => simp
      | true => simp [hcore hc]
    rw [hst] at hlay
    refine ⟨?_, ⟨fun _ => rfl, fun _ => rfl⟩, by simp, by simp [hs], nofun, ?_, h.calm⟩
    · rw [hgone, hhanded]
      exact .block h.admits hlay.run
    · exact later_cons.mpr ⟨hlater.1, later_cons.mpr ⟨nofun, hlater.2⟩⟩
  | panic hst hp hs hg hw =>
    rw [waitForFuture_eq h.admits] at hw
    cases hw
  | @ret rest hst hs hg =>
    rw [hst, later_cons] at hlater
    rw [hst] at hlay
    refine ⟨hlay.ret, h.admits, by simp, ?_, nofun, hlater.2, h.calm⟩
    intro hempty
    obtain rfl : rest = [] := by simpa using hempty
    exact ⟨hlay.ret.core_eq_false, Nat.zero_le _⟩

theorem Move.sound_spawned (hm : Move r s a a' spawned) (hb : b ∈ spawned) (j n : ℕ) : b.Sound j n := by
  cases hm with
  | spawn | executeStream =>
    obtain rfl := List.mem_singleton.mp hb
    exact Activity.sound_ofTask _ j n
  | pull =>
    obtain rfl := List.mem_singleton.mp hb
    exact Activity.sound_ofCall _ _ j n
  | _ => cases hb

/-- Where the activities are after a step. -/
theorem getElem?_step (h : (s.set i a' ++ spawned)[j]? = some b) :
    (j = i ∧ b = a') ∨ s[j]? = some b ∨ b ∈ spawned := by
  rcases Nat.lt_or_ge j s.length with hlt | hge
  · rw [List.getElem?_append_left (by simpa using hlt)] at h
    by_cases hj : i = j
    · subst hj
      rw [List.getElem?_set_self hlt] at h
      exact .inl ⟨rfl, (Option.some.inj h).symm⟩
    · rw [List.getElem?_set_ne hj] at h
      exact .inr (.inl h)
  · rw [List.getElem?_append_right (by simpa using hge)] at h
    exact .inr (.inr (List.mem_of_getElem? h))

/-- Every activity is sound at any time. -/
theorem sound_reachable {mains : List PyCode} (h : (process r mains).Reachable s) :
    ∀ (i : ℕ) (a : Activity), s[i]? = some a → a.Sound i s.length := by
  refine System.reachable_invariant
    (I := fun s : State => ∀ (i : ℕ) (a : Activity), s[i]? = some a → a.Sound i s.length) ?_ ?_ h
  · rintro s rfl i a ha
    obtain ⟨code, -, rfl⟩ := List.mem_map.mp (List.mem_of_getElem? ha)
    exact Activity.sound_ofCall true code i _
  · rintro s i t ⟨a, a', spawned, ha, hm, rfl⟩ hsound j b hb
    rw [List.length_append, List.length_set]
    rcases getElem?_step hb with ⟨rfl, rfl⟩ | hold | hnew
    · exact hm.sound (hsound _ _ ha) (List.getElem?_eq_some_iff.mp ha).1
    · exact (hsound _ _ hold).mono (Nat.le_add_right _ _)
    · exact hm.sound_spawned hnew _ _

section Progress

/-- Something more can be done. -/
def Moves (r : Runtime) (s : State) : Prop :=
  ∃ (i : ℕ) (a a' : Activity) (spawned : List Activity), s[i]? = some a ∧ Move r s a a' spawned

/-- Who has the GIL goes on, and gives it back when it waits. -/
theorem moves_of_gil (h : a.Sound i s.length) (ha : s[i]? = some a) (hg : a.gil = true) : Moves r s := by
  obtain ⟨hs, joining, code, rest, hst⟩ := h.gil hg
  cases hp : PyCode.pending joining code with
  | some x =>
    obtain ⟨awaiting, fut, next⟩ := x
    exact ⟨i, a, _, _, ha, .wait hst hp hs hg (waitForFuture_eq h.admits)⟩
  | none =>
    cases joining with
    | some id => cases hp
    | none =>
      cases code with
      | ret => exact ⟨i, a, _, _, ha, .ret hst hs hg⟩
      | waitForFuture fut next => cases hp
      | executeStream fut next => exact ⟨i, a, _, _, ha, .executeStream hst hs hg⟩

/-- While the GIL is free, an activity on a thread goes on unless it is blocked. -/
theorem moves_of_seated (h : a.Sound i s.length) (ha : s[i]? = some a) (hs : a.seated = true)
    (hfree : s.GilFree) : Moves r s ∨ a.blocked = true ∧ a.core = false := by
  have hlay := h.layered
  cases hst : a.stack with
  | nil => exact absurd hst (h.seated hs)
  | cons frame rest =>
    cases frame with
    | python joining code =>
      have hg : a.gil = false := hfree a (List.mem_of_getElem? ha)
      exact .inl ⟨i, a, _, _, ha, .takeGil hst hs hg hfree⟩
    | future awaiting fut outer handed =>
      cases awaiting with
      | none =>
        left
        cases fut with
        | ready =>
          cases rest with
          | nil => exact ⟨i, a, _, _, ha, .finish hst hs⟩
          | cons frame rest =>
            have hm : Move r s a { a with stack := frame :: rest, ctx := outer, core := false } [] :=
              .resume hst hs nofun
            exact ⟨i, a, _, _, ha, hm⟩
        | spawn task next => exact ⟨i, a, _, _, ha, .spawn hst hs⟩
        | pull own call next => exact ⟨i, a, _, _, ha, .pull hst hs⟩
        | attach call next => exact ⟨i, a, _, _, ha, .attach hst hs hfree⟩
      | some id =>
        by_cases hid : s.Finished id
        · exact .inl ⟨i, a, _, _, ha, .wake hst hid⟩
        · cases rest with
          | nil => exact .inl ⟨i, a, _, _, ha, .suspend hst hs hid⟩
          | cons frame rest =>
            rw [hst] at hlay
            refine .inr ⟨by simp [Activity.blocked, hst, hs], ?_⟩
            generalize a.core = core at hlay
            cases hlay
            rfl

/-- The threads of the pool that are blocked in a `wait_for_future`. -/
def State.blocked (s : State) : ℕ := s.countP fun a => a.blocked && a.kind != .thread

theorem Activity.seated_of_blocked (h : a.blocked = true) : a.seated = true := by
  unfold blocked at h
  split at h
  · exact h
  · cases h

/-- When nothing moves and the pool has a thread left, whoever has not finished waits for one spawned
later that has not finished either. -/
theorem waits_of_stuck (hsound : ∀ (i : ℕ) (a : Activity), s[i]? = some a → a.Sound i s.length)
    (hstuck : ¬Moves r s) (hroom : s.blocked < r.blockingThreads) (ha : s[i]? = some a)
    (hne : a.stack ≠ []) : ∃ id b, i < id ∧ s[id]? = some b ∧ b.stack ≠ [] := by
  have hfree : s.GilFree := by
    intro b hb
    obtain ⟨j, hj⟩ := List.getElem?_of_mem hb
    by_contra hg
    exact hstuck (moves_of_gil (hsound j b hj) hj (by simpa using hg))
  have hseated : ∀ b ∈ s, b.seated = true → b.blocked = true ∧ b.core = false := by
    intro b hb hs
    obtain ⟨j, hj⟩ := List.getElem?_of_mem hb
    exact (moves_of_seated (hsound j b hj) hj hs hfree).resolve_left hstuck
  have hbusy : s.busy = 0 := by
    refine List.countP_eq_zero.mpr fun b hb => ?_
    obtain ⟨j, hj⟩ := List.getElem?_of_mem hb
    cases hs : b.seated with
    | true => simp [(hseated b hb hs).2]
    | false => simp [((hsound j b hj).unseated hs).1]
  have htaken : s.taken = s.blocked := by
    refine List.countP_congr fun b hb => ?_
    have hiff : b.seated = true ↔ b.blocked = true :=
      ⟨fun hs => (hseated b hb hs).1, Activity.seated_of_blocked⟩
    simp [hiff]
  have hidle : r.HasRoom s a.kind := by
    cases a.kind with
    | thread => trivial
    | pool =>
      show s.taken < r.workers + r.blockingThreads
      omega
    | task =>
      have hpos := r.positive
      exact ⟨by omega, by omega⟩
  cases hw : a.awaits with
  | none =>
    cases hs : a.seated with
    | false => exact absurd ⟨i, a, _, _, ha, .seat hs hne hw hidle⟩ hstuck
    | true =>
      have hblocked := (hseated a (List.mem_of_getElem? ha) hs).1
      unfold Activity.blocked at hblocked
      split at hblocked
      · rename_i hst
        simp [Activity.awaits, hst] at hw
      · cases hblocked
  | some id =>
    unfold Activity.awaits at hw
    split at hw
    · rename_i awaiting fut outer handed rest hst
      subst hw
      have hlater := (hsound i a ha).later
      rw [hst, later_cons] at hlater
      obtain ⟨hlt, hid⟩ := hlater.1 id (by simp [Frame.ids])
      refine ⟨id, s[id], hlt, List.getElem?_eq_getElem hid, fun hnil => hstuck ?_⟩
      exact ⟨i, a, _, _, ha, .wake hst ⟨s[id], List.getElem?_eq_getElem hid, hnil⟩⟩
    · cases hw

/-- As long as an activity has not finished, something more can be done, unless the threads of the pool
are blocked. -/
theorem moves_of_unfinished
    (hsound : ∀ (i : ℕ) (a : Activity), s[i]? = some a → a.Sound i s.length) (ha : s[i]? = some a)
    (hne : a.stack ≠ []) : Moves r s ∨ r.blockingThreads ≤ s.blocked := by
  by_contra hnone
  obtain ⟨hstuck, hroom⟩ := not_or.mp hnone
  -- What it waits for is further on, and so is what that waits for.
  induction hd : s.length - i using Nat.strong_induction_on generalizing i a with
  | _ d ih =>
    obtain ⟨id, b, hlt, hb, hne'⟩ := waits_of_stuck hsound hstuck (by omega) ha hne
    have hid : id < s.length := (List.getElem?_eq_some_iff.mp hb).1
    exact ih (s.length - id) (by omega) hb hne' rfl

end Progress

section Bound

mutual

/-- The steps a future takes at most, with those of all it spawns. -/
def Future.weight : Future → ℕ
  | .ready => 4
  | .spawn task next => task.weight + next.weight + 6
  | .pull _ call next => call.weight + next.weight + 6
  | .attach call next => call.weight + next.weight + 1

def PyCode.weight : PyCode → ℕ
  | .ret => 5
  | .waitForFuture fut next => fut.weight + next.weight + 1
  | .executeStream fut next => fut.weight + next.weight + 10

end

def Frame.weight : Frame → ℕ
  | .future _ fut _ _ => fut.weight
  | .python none code => code.weight
  | .python (some _) code => code.weight + 8

/-- What an activity has before it until its innermost call goes on. -/
def Activity.delay (a : Activity) : ℕ :=
  match a.stack with
  | [] => 0
  | .future none _ _ _ :: _ => if a.seated then 0 else 1
  | .future (some _) _ _ _ :: _ => if a.seated then 3 else 2
  | .python _ _ :: _ => (if a.seated then 0 else 1) + if a.gil then 0 else 1

def Activity.weight (a : Activity) : ℕ := a.delay + (a.stack.map Frame.weight).sum

def State.weight (s : State) : ℕ := (s.map Activity.weight).sum

theorem Activity.delay_le (a : Activity) : a.delay ≤ 3 := by
  unfold delay
  split
  · omega
  · split <;> omega
  · split <;> omega
  · split <;> split <;> omega

theorem Activity.weight_ofTask (fut : Future) : (ofTask fut).weight = fut.weight + 1 := by
  simp only [weight, delay, ofTask, Bool.false_eq_true, if_false, List.map_cons, Frame.weight,
    List.map_nil, List.sum_cons, List.sum_nil]
  omega

theorem Activity.weight_ofCall (own : Bool) (call : PyCode) : (ofCall own call).weight = call.weight + 2 := by
  simp only [weight, delay, ofCall, Bool.false_eq_true, if_false, List.map_cons, Frame.weight,
    List.map_nil, List.sum_cons, List.sum_nil]
  omega

/-- What Python code waits for is worth less than what it was. -/
theorem pending_weight {joining awaiting : Option ℕ} {code next : PyCode} {fut : Future}
    (h : PyCode.pending joining code = some (awaiting, fut, next)) (outer : Context) (handed : Bool) :
    (Frame.future awaiting fut outer handed).weight + (Frame.python none next).weight +
      (if awaiting.isSome then 4 else 1) ≤ (Frame.python joining code).weight := by
  unfold PyCode.pending at h
  split at h
  · cases h
    simp only [Frame.weight, Future.weight, Option.isSome_some, if_true]
    omega
  · cases h
    simp [Frame.weight, PyCode.weight]
  · cases h

/-- Every move takes an activity further, what it spawns included. -/
theorem Move.weight (hm : Move r s a a' spawned) :
    a'.weight + (spawned.map Activity.weight).sum < a.weight := by
  have hdelay := a'.delay_le
  cases hm with
  | seat hs hne ha hroom =>
    unfold Activity.awaits at ha
    cases hst : a.stack with
    | nil => exact absurd hst hne
    | cons frame rest =>
      cases frame with
      | python joining code => simp [Activity.weight, Activity.delay, hst, hs]
      | future awaiting fut outer handed =>
        obtain rfl : awaiting = none := by simpa [hst] using ha
        simp [Activity.weight, Activity.delay, hst, hs]
  | suspend hst hs hid => simp [Activity.weight, Activity.delay, hst, hs]
  | wake hst hid =>
    simp only [Activity.weight, Activity.delay, hst, List.map_cons, List.map_nil, List.sum_cons,
      List.sum_nil, Frame.weight]
    split <;> omega
  | spawn hst hs | pull hst hs =>
    simp only [Activity.weight_ofTask, Activity.weight_ofCall, List.map_cons, List.map_nil,
      List.sum_cons, List.sum_nil]
    simp only [Activity.weight, Activity.delay, hst, hs, if_true, List.map_cons, List.sum_cons,
      Frame.weight, Future.weight]
    omega
  | attach hst hs hfree =>
    simp only [Activity.weight, Activity.delay, hst, hs, if_true, List.map_cons, List.map_nil,
      List.sum_cons, List.sum_nil, Frame.weight, Future.weight]
    omega
  | finish hst hs => simp [Activity.weight, Activity.delay, hst, hs, Frame.weight, Future.weight]
  | resume hst hs hcore =>
    simp only [Activity.weight, hst, List.map_cons, List.map_nil, List.sum_cons, List.sum_nil,
      Frame.weight, Future.weight]
    omega
  | takeGil hst hs hg hfree => simp [Activity.weight, Activity.delay, hst, hs, hg]
  | executeStream hst hs hg =>
    simp only [Activity.weight_ofTask, List.map_cons, List.map_nil, List.sum_cons, List.sum_nil]
    simp only [Activity.weight, Activity.delay, hst, hs, hg, if_true, List.map_cons, List.sum_cons,
      Frame.weight, PyCode.weight]
    omega
  | @wait _ awaiting _ _ _ _ _ handed hst hp hs hg hw =>
    have hle := pending_weight hp a.ctx (handed && a.core)
    simp only [Activity.weight, hst, List.map_cons, List.map_nil, List.sum_cons, List.sum_nil]
    cases awaiting <;> simp [Activity.delay, hs] at hle ⊢ <;> omega
  | panic hst hp hs hg hw =>
    have hle := pending_weight hp a.ctx false
    simp only [Activity.weight, Activity.delay, hst, List.map_cons, List.map_nil, List.sum_cons,
      List.sum_nil]
    split at hle <;> omega
  | ret hst hs hg =>
    simp only [Activity.weight, hst, List.map_cons, List.map_nil, List.sum_cons, List.sum_nil,
      Frame.weight, PyCode.weight]
    omega

/-- Exchanging an activity for what has become of it. -/
theorem weight_set (ha : s[i]? = some a) (a' : Activity) :
    State.weight (s.set i a') + a.weight = s.weight + a'.weight := by
  induction s generalizing i with
  | nil => cases ha
  | cons b s ih =>
    cases i with
    | zero =>
      cases ha
      simp only [State.weight, List.set_cons_zero, List.map_cons, List.sum_cons]
      omega
    | succ i =>
      have hrest := ih ha
      simp only [State.weight, List.set_cons_succ, List.map_cons, List.sum_cons] at hrest ⊢
      omega

theorem weight_step (ha : s[i]? = some a) (hm : Move r s a a' spawned) :
    State.weight (s.set i a' ++ spawned) < s.weight := by
  have hlt := hm.weight
  have hset := weight_set ha a'
  simp only [State.weight, List.map_append, List.sum_append] at hset ⊢
  omega

end Bound

variable {mains : List PyCode} {xs : List (State × ℕ)}

/-- However deep queries are run from within queries, no thread starts a runtime within the runtime, and
none is blocked with the GIL. -/
theorem no_runtime_within_runtime (h : (process r mains).Reachable s) :
    ∀ a ∈ s, a.panic = none ∧ (a.gil = true → a.blocked = false) := by
  intro a ha
  obtain ⟨i, hi⟩ := List.getElem?_of_mem ha
  have hsound := sound_reachable h i a hi
  refine ⟨hsound.calm, fun hg => ?_⟩
  obtain ⟨-, joining, code, rest, hst⟩ := hsound.gil hg
  simp [Activity.blocked, hst]

/-- Every run is bounded by what the programs are made of, and comes to the end of them all, with a
single worker too, unless as many threads as the blocking pool has besides the workers are blocked in
`wait_for_future`. -/
theorem reentrant_completes (h : (process r mains).Run (started mains) xs s) :
    xs.length + s.weight ≤ (started mains).weight ∧
      ((∃ a ∈ s, a.stack ≠ []) →
        (∃ i t, (process r mains).step s i t) ∨ r.blockingThreads ≤ s.blocked) := by
  constructor
  · have hbound : ∀ {s₀ xs s}, (process r mains).Run s₀ xs s →
        xs.length + State.weight s ≤ State.weight s₀ := by
      intro s₀ xs s hrun
      induction hrun with
      | refl => simp
      | stepL hs _ ih =>
        obtain ⟨a, a', spawned, ha, hm, rfl⟩ := hs
        have hlt := weight_step ha hm
        rw [List.length_cons]
        omega
    exact hbound h
  · rintro ⟨a, ha, hne⟩
    obtain ⟨i, hi⟩ := List.getElem?_of_mem ha
    have hreach : (process r mains).Reachable s := ⟨_, xs, rfl, h⟩
    rcases moves_of_unfinished (sound_reachable hreach) hi hne with ⟨j, b, b', spawned, hj, hm⟩ | hfull
    · exact .inl ⟨j, _, b, b', spawned, hj, hm, rfl⟩
    · exact .inr hfull

/-- What an activity can do, as functions: it gets on a thread, polls its future, or runs its Python
code. A worker that was handed back does not get its core again. -/
def Activity.takeSeat (r : Runtime) (s : State) (a : Activity) : Option (Activity × List Activity) :=
  if r.HasRoom s a.kind then
    some ({ a with seated := true, core := a.kind == .task, ctx := a.kind.context }, [])
  else none

def Activity.poll (s : State) (a : Activity) (outer : Context) (handed : Bool) (rest : List Frame) :
    Future → Option (Activity × List Activity)
  | .spawn task next =>
    some ({ a with stack := .future (some s.length) next outer handed :: rest }, [.ofTask task])
  | .pull own call next =>
    some ({ a with stack := .future (some s.length) next outer handed :: rest }, [.ofCall own call])
  | .attach call next =>
    if s.GilFree then
      some ({ a with
        gil := true, stack := .python none call :: .future none next outer handed :: rest }, [])
    else none
  | .ready => match rest with
    | [] => some ({ a with stack := [], seated := false, core := false }, [])
    | frame :: rest => some ({ a with stack := frame :: rest, ctx := outer, core := false }, [])

def Activity.run (s : State) (a : Activity) (joining : Option ℕ) (code : PyCode) (rest : List Frame) :
    Option (Activity × List Activity) :=
  if a.gil then
    match PyCode.pending joining code with
    | some (awaiting, fut, next) => match waitForFuture a.ctx with
      | .ok (ctx, handed) => some ({ a with
          stack := .future awaiting fut a.ctx (handed && a.core) :: .python none next :: rest
          ctx, gil := false, core := !handed && a.core }, [])
      | .error message => some ({ a with
          stack := [], seated := false, core := false, gil := false, panic := some message }, [])
    | none => match joining, code with
      | none, .executeStream fut next =>
        some ({ a with stack := .python (some s.length) next :: rest }, [.ofTask fut])
      | none, .ret => some ({ a with stack := rest, gil := false, seated := !rest.isEmpty }, [])
      | _, _ => none
  else if s.GilFree then some ({ a with gil := true }, [])
  else none

def Activity.advance (r : Runtime) (s : State) (a : Activity) : Option (Activity × List Activity) :=
  match a.stack with
  | [] => none
  | .future (some id) fut outer handed :: rest =>
    if s.Finished id then some ({ a with stack := .future none fut outer handed :: rest }, [])
    else if a.seated && rest.isEmpty then some ({ a with seated := false, core := false }, [])
    else none
  | .future none fut outer handed :: rest =>
    if a.seated then a.poll s outer handed rest fut else a.takeSeat r s
  | .python joining code :: rest => if a.seated then a.run s joining code rest else a.takeSeat r s

theorem Activity.takeSeat_sound (h : a.takeSeat r s = some (a', spawned)) (hs : a.seated = false)
    (hne : a.stack ≠ []) (hw : a.awaits = none) : Move r s a a' spawned := by
  unfold takeSeat at h
  split at h
  · rename_i hroom
    cases h
    exact .seat hs hne hw hroom
  · cases h

theorem Activity.poll_sound {fut : Future} (h : a.poll s outer handed rest fut = some (a', spawned))
    (hst : a.stack = .future none fut outer handed :: rest) (hs : a.seated = true) :
    Move r s a a' spawned := by
  cases fut with
  | spawn task next =>
    cases h
    exact .spawn hst hs
  | pull own call next =>
    cases h
    exact .pull hst hs
  | attach call next =>
    obtain ⟨hfree, heq⟩ := Option.ite_none_right_eq_some.mp h
    cases heq
    exact .attach hst hs hfree
  | ready =>
    cases rest with
    | nil =>
      cases h
      exact .finish hst hs
    | cons frame rest =>
      cases h
      exact .resume hst hs nofun

theorem Activity.run_sound {joining : Option ℕ} {code : PyCode}
    (h : a.run s joining code rest = some (a', spawned)) (hst : a.stack = .python joining code :: rest)
    (hs : a.seated = true) : Move r s a a' spawned := by
  unfold run at h
  split at h
  · rename_i hg
    split at h
    · rename_i awaiting fut next hp
      split at h
      · rename_i ctx handed hw
        cases h
        exact .wait hst hp hs hg hw
      · rename_i message hw
        cases h
        exact .panic hst hp hs hg hw
    · split at h
      · cases h
        exact .executeStream hst hs hg
      · cases h
        exact .ret hst hs hg
      · cases h
  · rename_i hg
    split at h
    · rename_i hfree
      cases h
      exact .takeGil hst hs (by simpa using hg) hfree
    · cases h

theorem Activity.advance_sound (h : a.advance r s = some (a', spawned)) : Move r s a a' spawned := by
  unfold Activity.advance at h
  split at h
  · cases h
  · rename_i id fut outer handed rest hst
    split at h
    · rename_i hid
      cases h
      exact .wake hst hid
    · split at h
      · rename_i hid hwait
        simp only [Bool.and_eq_true, List.isEmpty_iff] at hwait
        obtain ⟨hs, rfl⟩ := hwait
        cases h
        exact .suspend hst hs hid
      · cases h
  · rename_i fut outer handed rest hst
    split at h
    · rename_i hs
      exact poll_sound h hst hs
    · rename_i hs
      exact takeSeat_sound h (by simpa using hs) (by simp [hst]) (by simp [awaits, hst])
  · rename_i joining code rest hst
    split at h
    · rename_i hs
      exact run_sound h hst hs
    · rename_i hs
      exact takeSeat_sound h (by simpa using hs) (by simp [hst]) (by simp [awaits, hst])

def State.advance (r : Runtime) (i : ℕ) (s : State) : Option State :=
  s[i]?.bind fun a => (a.advance r s).map fun next => s.set i next.1 ++ next.2

theorem State.advance_sound (h : s.advance r i = some t) : (process r mains).step s i t := by
  obtain ⟨a, ha, h⟩ := Option.bind_eq_some_iff.mp h
  obtain ⟨⟨a', spawned⟩, hadv, rfl⟩ := Option.map_eq_some_iff.mp h
  exact ⟨a, a', spawned, ha, Activity.advance_sound hadv, rfl⟩

/-- Python code that streams a query, whose task calls a function that runs a query of its own. -/
def nestedStream : PyCode :=
  .executeStream (.attach (.waitForFuture .ready .ret) .ready) .ret

/-- One worker, and one thread more for the pool. -/
def single : Runtime := ⟨1, 1, Nat.one_pos⟩

theorem nestedStream_run : ∃ xs s, (process single [nestedStream]).Run (started [nestedStream]) xs s ∧
    xs.length = 15 ∧ ∀ a ∈ s, a.stack = [] := by
  obtain ⟨s, hs, hstacks⟩ : ∃ s, System.replay (fun i s => State.advance single i s)
      [0, 0, 0, 0, 1, 1, 1, 1, 1, 1, 1, 0, 0, 0, 0] (started [nestedStream]) = some s ∧
        s.map Activity.stack = [[], []] := ⟨_, rfl, rfl⟩
  obtain ⟨xs, hx, hmap⟩ := System.replay_run (g := id) (fun i s t => State.advance_sound) hs
  refine ⟨xs, s, hx, by simpa using congrArg List.length hmap, fun a ha => ?_⟩
  have hmem := List.mem_map_of_mem (f := Activity.stack) ha
  rw [hstacks] at hmem
  simpa using hmem

theorem no_runtime_within_runtime_nestedStream : ∃ s, (process single [nestedStream]).Reachable s ∧
    (∀ a ∈ s, a.stack = []) ∧ ∀ a ∈ s, a.panic = none := by
  obtain ⟨xs, s, hrun, -, hdone⟩ := nestedStream_run
  have hs : (process single [nestedStream]).Reachable s := ⟨_, xs, rfl, hrun⟩
  exact ⟨s, hs, hdone, fun a ha => (no_runtime_within_runtime hs a ha).1⟩

theorem reentrant_completes_nestedStream : ∃ xs s,
    (process single [nestedStream]).Run (started [nestedStream]) xs s ∧ (∀ a ∈ s, a.stack = []) ∧
      xs.length + s.weight ≤ (started [nestedStream]).weight := by
  obtain ⟨xs, s, hrun, -, hdone⟩ := nestedStream_run
  exact ⟨xs, s, hrun, hdone, (reentrant_completes hrun).1⟩

end XorqDatafusion.Reentry
