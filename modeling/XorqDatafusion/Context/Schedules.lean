import XorqDatafusion.Context.Registrations

/-! Orders the registration tasks can run in: some before all others, one after them. -/
namespace XorqDatafusion.Context

open Fallible Transition

variable {F : Type} {ι : Type} {world : Outside F} {format : ConfigFileType}
  {storageOptions : List (String × String)} {location : ι → String} {runtime : Runtime F}
  {installed : Namespace → Prop} {url : TableUrl} {store : Store} {task : Registration F}
  {copy copy' : TableOptions F} {n m : Namespace} {i j : ι} {p q : Runtime F × (ι → Registration F)}

namespace Registration

def isFailed : Registration F → Bool
  | .failed _ => true
  | _ => false

theorem over_cases (h : task.over = true) :
    (∃ url store, task = .done url store) ∨ task.isFailed = true := by
  cases task with
  | done url store => exact .inl ⟨url, store, rfl⟩
  | failed e => exact .inr rfl
  | _ => cases h

def rank : Registration F → ℕ
  | .spawned => 4
  | .installed _ => 3
  | .altered _ _ => 2
  | .built _ _ => 1
  | .done _ _ | .failed _ => 0

theorem rank_eq_zero_iff : task.rank = 0 ↔ task.over = true := by
  cases task <;> simp [rank, Registration.over]

end Registration

def Finished (p : Runtime F × (ι → Registration F)) : Prop := ∀ i, (p.2 i).over = true

def failing (p : Runtime F × (ι → Registration F)) : Set ι := {i | (p.2 i).isFailed = true}

theorem notMem_failing (hi : p.2 i = .done url store) : i ∉ failing p := by
  simp [failing, hi, Registration.isFailed]

/-- Some path asks for this extension. -/
def Asked (world : Outside F) (location : ι → String) (n : Namespace) : Prop :=
  ∃ i, installs world (location i) = some n

theorem Begun.asked {tasks : ι → Registration F} (h : Begun world location tasks n) :
    Asked world location n := by
  obtain ⟨i, hi, -⟩ := h
  exact ⟨i, hi⟩

theorem installs_of_parse {path : String} (hp : world.parse path = .ok url) :
    installs world path = schemeNamespace url.scheme := by
  simp [installs, hp]

section First

/-- The table options as a task leaves them that runs before all others. -/
def ownOptions (options : TableOptions F) (url : TableUrl) : TableOptions F :=
  match schemeNamespace url.scheme with
  | some n => options.install n
  | none => options

/-- This path gets its store when its task runs before all others. -/
def SucceedsFirst (world : Outside F) (format : ConfigFileType)
    (storageOptions : List (String × String)) (runtime : Runtime F) (path : String) : Prop :=
  ∃ url store, world.parse path = .ok url ∧ outcome world format storageOptions runtime.stores url
    (ownOptions runtime.tableOptions url) = .ok store

theorem ownOptions_own (options : TableOptions F) (hn : schemeNamespace url.scheme = some n) :
    (ownOptions options url).extensions n = some (.default n) := by
  simp [ownOptions, hn, TableOptions.install]

theorem ownOptions_other (options : TableOptions F) (hn : schemeNamespace url.scheme ≠ some n) :
    (ownOptions options url).extensions n = options.extensions n := by
  cases hm : schemeNamespace url.scheme with
  | none => simp [ownOptions, hm]
  | some m =>
    have hne : n ≠ m := by
      rintro rfl
      exact hn hm
    simp [ownOptions, hm, TableOptions.install, hne]

theorem Shared.ownOptions (h : Shared runtime installed copy)
    (hown : ∀ n, schemeNamespace url.scheme = some n → installed n) :
    Copied runtime installed url (ownOptions copy url) := by
  refine ⟨?_, fun n hn => ownOptions_own copy hn⟩
  cases hn : schemeNamespace url.scheme with
  | none => simpa [Context.ownOptions, hn] using h
  | some n => simpa [Context.ownOptions, hn] using h.install (hown n hn)

/-- A path that gets its store when it runs first gets it whenever it runs. -/
theorem SucceedsFirst.outcome {path : String}
    (h : SucceedsFirst world format storageOptions runtime path) (hp : world.parse path = .ok url)
    (hc : Copied runtime installed url copy)
    (hown : ∀ n, schemeNamespace url.scheme = some n → installed n) :
    ∃ store, outcome world format storageOptions runtime.stores url copy = .ok store := by
  obtain ⟨url', store, hp', ho⟩ := h
  obtain rfl : url = url' := Except.ok.inj (hp.symm.trans hp')
  refine ⟨store, outcome_of_copied (Shared.start.ownOptions hown) hc rfl ho ?_⟩
  intro n hn m _ hsome
  by_cases hm : schemeNamespace url.scheme = some m
  · simp [hc.own m hm]
  · rw [ownOptions_other _ hm] at hsome
    rcases hc.extensions m with h | ⟨-, h⟩
    · rwa [h]
    · simp [h]

/-- With nothing installed but its own extension, a path gets its store only if it does so first. -/
theorem Builds.succeedsFirst {path : String} (hp : world.parse path = .ok url)
    (h : Builds world format storageOptions runtime installed url store)
    (hown : ∀ n, installed n → schemeNamespace url.scheme = some n) :
    SucceedsFirst world format storageOptions runtime path := by
  obtain ⟨copy, hc, ho⟩ := h
  have hc' : Copied runtime (fun n => schemeNamespace url.scheme = some n) url copy := hc.mono hown
  refine ⟨url, store, hp, outcome_of_copied hc' (Shared.start.ownOptions fun _ hn => hn) rfl ho ?_⟩
  intro n hn m _ hsome
  by_cases hm : schemeNamespace url.scheme = some m
  · simp [ownOptions_own _ hm]
  · rw [ownOptions_other _ hm]
    rcases hc'.extensions m with h | ⟨h, -⟩
    · rwa [← h]
    · exact absurd h hm

end First

section Orders

/-- A task never waits for another. -/
theorem exists_step (path : String) (now : Runtime F) (h : task.rank ≠ 0) : ∃ now' task',
    registerObjectStoreAndConfigExtensions world format storageOptions path (now, task) =
      some (now', task') ∧ task'.rank < task.rank := by
  cases task with
  | spawned =>
    rw [registerObjectStoreAndConfigExtensions]
    split
    · exact ⟨_, _, rfl, by simp [Registration.rank]⟩
    · split <;> exact ⟨_, _, rfl, by simp [Registration.rank]⟩
  | installed url =>
    rw [registerObjectStoreAndConfigExtensions]
    split <;> exact ⟨_, _, rfl, by simp [Registration.rank]⟩
  | altered url options =>
    rw [registerObjectStoreAndConfigExtensions]
    split <;> exact ⟨_, _, rfl, by simp [Registration.rank]⟩
  | built url store => exact ⟨_, _, rfl, by simp [Registration.rank]⟩
  | done url store => exact absurd rfl h
  | failed e => exact absurd rfl h

/-- What a path does on its own, one access to the session after the other. -/
theorem replay_done {path : String} {now : Runtime F} (hp : world.parse path = .ok url)
    (ho : outcome world format storageOptions now.stores url (ownOptions now.tableOptions url) =
      .ok store) :
    ∃ k, System.replay (fun _ : Unit =>
      registerObjectStoreAndConfigExtensions world format storageOptions path)
      [(), (), (), ()] (now, .spawned) = some (k, .done url store) := by
  obtain ⟨options, ha, hs⟩ := outcome_eq_ok_iff.mp ho
  refine ⟨{ tableOptions := ownOptions now.tableOptions url,
            stores := Function.update now.stores url.key (some store) }, ?_⟩
  cases hn : schemeNamespace url.scheme <;>
    simp only [ownOptions, hn] at ha ⊢ <;>
    simp only [System.replay, registerObjectStoreAndConfigExtensions, hp, hn, ha, hs, Option.bind_some]

variable [DecidableEq ι]

theorem reachable_start : (registrations world format storageOptions location runtime).Reachable
    (runtime, fun _ => .spawned) := .of_start ⟨rfl, fun _ => rfl⟩

/-- Once all other tasks have begun, a path that can get a store gets it. -/
theorem outcome_of_begun {r : Runtime F × (ι → Registration F)}
    (hr : (registrations world format storageOptions location runtime).Reachable r)
    (hbegun : ∀ i ≠ j, r.2 i ≠ .spawned) (hp : world.parse (location j) = .ok url)
    (hb : Builds world format storageOptions runtime (Asked world location) url store) :
    outcome world format storageOptions r.1.stores url (ownOptions r.1.tableOptions url) =
      .ok store := by
  have hprog := Progress.of_reachable hr
  have hown : ∀ n, schemeNamespace url.scheme = some n → Asked world location n := by
    intro n hn
    exact ⟨j, by rw [installs_of_parse hp, hn]⟩
  obtain ⟨copy, hc, ho⟩ := hb
  have hc' : Copied runtime (Asked world location) url (ownOptions r.1.tableOptions url) :=
    (hprog.options.mono fun _ hn => hn.asked).ownOptions hown
  have ho' := outcome_of_copied hc hc' rfl ho ?_
  · obtain ⟨options, ha, hs⟩ := outcome_eq_ok_iff.mp ho'
    exact outcome_eq_ok_iff.mpr ⟨options, ha, by rw [hprog.getObjectStore, hs]⟩
  · intro n hn m _ hsome
    by_cases hm : schemeNamespace url.scheme = some m
    · simp [ownOptions_own _ hm]
    · rw [ownOptions_other _ hm]
      rcases hc.extensions m with hext | ⟨⟨i, hi⟩, -⟩
      · rw [hext] at hsome
        rcases hprog.options.extensions m with hext' | ⟨-, hext'⟩
        · rwa [hext']
        · simp [hext']
      · have hij : i ≠ j := by
          rintro rfl
          exact hm (by rw [← installs_of_parse hp, hi])
        simp [hprog.own (hbegun i hij) hi]

variable [Fintype ι]

/-- Any of the tasks can run to their end while the others wait. -/
theorem exists_over (S : ι → Prop) [DecidablePred S]
    (h : (registrations world format storageOptions location runtime).Reachable p) :
    ∃ q, (registrations world format storageOptions location runtime).Reachable q ∧
      (∀ i, S i → (q.2 i).over = true) ∧ (∀ i, ¬S i → q.2 i = p.2 i) ∧
      ∀ i, (p.2 i).over = true → q.2 i = p.2 i := by
  let rank (i : ι) (task : Registration F) : ℕ := if S i then task.rank else 0
  obtain ⟨xs, q, hr, hq, hkeep⟩ : ∃ xs q,
      (registrations world format storageOptions location runtime).Run p xs q ∧
      (∀ i, rank i (q.2 i) = 0) ∧ ∀ i, rank i (p.2 i) = 0 → q.2 i = p.2 i := by
    refine family_finishes rank (fun i now task ht => ?_) p
    obtain ⟨hi, ht⟩ := ite_ne_right_iff.mp ht
    obtain ⟨now', task', hs, hlt⟩ := exists_step (location i) now ht
    exact ⟨(), now', task', hs, by simpa [rank, hi] using hlt⟩
  refine ⟨q, h.run hr, fun i hi => ?_, fun i hi => hkeep i (if_neg hi), fun i hi => hkeep i ?_⟩
  · exact Registration.rank_eq_zero_iff.mp (by simpa [rank, hi] using hq i)
  · simp [rank, Registration.rank_eq_zero_iff.mpr hi]

/-- Paths that go to one scheme, and would fail first, do fail when they run before the others. -/
theorem exists_failed
    (h : (registrations world format storageOptions location runtime).Reachable
      (runtime, fun _ => .spawned))
    (S : ι → Prop) [DecidablePred S] (n : Option Namespace)
    (hS : ∀ i, S i → installs world (location i) = n)
    (hfail : ∀ i, S i → ¬SucceedsFirst world format storageOptions runtime (location i)) :
    ∃ q, (registrations world format storageOptions location runtime).Reachable q ∧
      (∀ i, S i → (q.2 i).isFailed = true) ∧ ∀ i, ¬S i → q.2 i = .spawned := by
  obtain ⟨q, hq, hover, hrest, -⟩ := exists_over S h
  refine ⟨q, hq, fun i hi => ?_, hrest⟩
  rcases Registration.over_cases (hover i hi) with ⟨url, store, hd⟩ | hf
  · have hstand := (Progress.of_reachable hq).tasks i
    rw [hd] at hstand
    obtain ⟨hp, hbuilds, -⟩ := hstand
    refine absurd (hbuilds.succeedsFirst hp fun m hm => ?_) (hfail i hi)
    obtain ⟨j, hj, hbegun⟩ := hm
    have hSj : S j := by
      by_contra hj'
      exact hbegun (hrest j hj')
    rw [← installs_of_parse hp, hS i hi, ← hS j hSj, hj]
  · exact hf

/-- A path that can get a store gets it when its task runs last. -/
theorem exists_done (h : (registrations world format storageOptions location runtime).Reachable p)
    (hp : world.parse (location j) = .ok url)
    (hb : Builds world format storageOptions runtime (Asked world location) url store)
    (hj : p.2 j = .spawned) :
    ∃ q, (registrations world format storageOptions location runtime).Reachable q ∧ Finished q ∧
      q.2 j = .done url store ∧ ∀ i, (p.2 i).over = true → q.2 i = p.2 i := by
  obtain ⟨r, hr, hover, hwait, hkeep⟩ := exists_over (fun i => i ≠ j) h
  have hrj : r.2 j = .spawned := by rw [hwait j (by simp), hj]
  have hbegun : ∀ i ≠ j, r.2 i ≠ .spawned := by
    intro i hij hspawned
    have hi := hover i hij
    rw [hspawned] at hi
    cases hi
  obtain ⟨k, hdone⟩ := replay_done hp (outcome_of_begun hr hbegun hp hb)
  rw [← hrj] at hdone
  obtain ⟨xs, hrun⟩ : ∃ xs, (registrations world format storageOptions location runtime).Run r xs
      (k, Function.update r.2 j (.done url store)) :=
    family_replay r.2 j (fun _ _ _ hstep => hstep) hdone
  refine ⟨_, hr.run hrun, fun i => ?_, by simp, fun i hi => ?_⟩
  · by_cases hij : i = j
    · subst hij
      simp [Registration.over]
    · simpa [hij] using hover i hij
  · have hij : i ≠ j := by
      rintro rfl
      rw [hj] at hi
      cases hi
    simp [hij, hkeep i hi]

end Orders

end XorqDatafusion.Context
