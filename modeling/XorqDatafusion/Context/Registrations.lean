import XorqDatafusion.Context.Confluence

/-! What the registration tasks of one call have done, in whatever order they ran. -/
namespace XorqDatafusion.Context

open Fallible Transition

variable {F : Type} {ι : Type} [DecidableEq ι] {world : Outside F} {format : ConfigFileType}
  {storageOptions : List (String × String)} {location : ι → String} {runtime now : Runtime F}
  {installed : Namespace → Prop} {url url' : TableUrl} {store store' : Store} {task : Registration F}
  {n m : Namespace} {i j : ι} {p q : Runtime F × (ι → Registration F)}

/-- Some task that has begun asked for this extension. -/
def Begun (world : Outside F) (location : ι → String) (tasks : ι → Registration F) (n : Namespace) :
    Prop :=
  ∃ i, installs world (location i) = some n ∧ tasks i ≠ .spawned

/-- A task that goes to this URL may get this store. -/
def Builds (world : Outside F) (format : ConfigFileType) (storageOptions : List (String × String))
    (runtime : Runtime F) (installed : Namespace → Prop) (url : TableUrl) (store : Store) : Prop :=
  ∃ copy, Copied runtime installed url copy ∧
    outcome world format storageOptions runtime.stores url copy = .ok store

/-- What holds of the stores, as they are now, and of a task by where the task stands. -/
def Standing (world : Outside F) (format : ConfigFileType) (storageOptions : List (String × String))
    (runtime : Runtime F) (installed : Namespace → Prop) (location : String)
    (stores : StoreKey → Option Store) : Registration F → Prop
  | .spawned => True
  | .installed url => world.parse location = .ok url
  | .altered url options => world.parse location = .ok url ∧
      ∃ copy, Copied runtime installed url copy ∧
        alterCopy world format storageOptions url copy = .ok options
  | .built url store => world.parse location = .ok url ∧
      Builds world format storageOptions runtime installed url store
  | .done url store => world.parse location = .ok url ∧
      Builds world format storageOptions runtime installed url store ∧ stores url.key = some store
  | .failed e => ∀ url, world.parse location = .ok url → ∃ copy, Copied runtime installed url copy ∧
      outcome world format storageOptions runtime.stores url copy = .error e

structure Progress (world : Outside F) (format : ConfigFileType)
    (storageOptions : List (String × String)) (location : ι → String) (runtime : Runtime F)
    (p : Runtime F × (ι → Registration F)) : Prop where
  options : Shared runtime (Begun world location p.2) p.1.tableOptions
  installed : ∀ n, Begun world location p.2 n →
    p.1.tableOptions.extensions n = some (.default n)
  untouched : ∀ k, (∀ i url store, p.2 i = .done url store → url.key ≠ k) →
    p.1.stores k = runtime.stores k
  tasks : ∀ i, Standing world format storageOptions runtime (Begun world location p.2) (location i)
    p.1.stores (p.2 i)

section Monotone

variable {installed' : Namespace → Prop} (hle : ∀ n, installed n → installed' n)
include hle

theorem Shared.mono {t : TableOptions F} (h : Shared runtime installed t) :
    Shared runtime installed' t where
  currentFormat := h.currentFormat
  formatOptions := h.formatOptions
  extensions n := (h.extensions n).imp id fun hn => ⟨hle n hn.1, hn.2⟩

theorem Copied.mono {t : TableOptions F} (h : Copied runtime installed url t) :
    Copied runtime installed' url t := ⟨h.toShared.mono hle, h.own⟩

theorem Builds.mono (h : Builds world format storageOptions runtime installed url store) :
    Builds world format storageOptions runtime installed' url store := by
  obtain ⟨copy, hc, ho⟩ := h
  exact ⟨copy, hc.mono hle, ho⟩

theorem Standing.mono {path : String} {stores stores' : StoreKey → Option Store}
    (h : Standing world format storageOptions runtime installed path stores task)
    (hstores : ∀ url store, task = .done url store → stores' url.key = some store) :
    Standing world format storageOptions runtime installed' path stores' task := by
  cases task with
  | spawned => exact h
  | installed url => exact h
  | altered url options =>
    obtain ⟨hp, copy, hc, ha⟩ := h
    exact ⟨hp, copy, hc.mono hle, ha⟩
  | built url store => exact ⟨h.1, h.2.mono hle⟩
  | done url store => exact ⟨h.1, h.2.1.mono hle, hstores url store rfl⟩
  | failed e =>
    intro url hp
    obtain ⟨copy, hc, ho⟩ := h url hp
    exact ⟨copy, hc.mono hle, ho⟩

end Monotone

theorem Begun.update {tasks : ι → Registration F} (h : Begun world location tasks n)
    (ht : task ≠ .spawned) : Begun world location (Function.update tasks i task) n := by
  obtain ⟨j, hj, hb⟩ := h
  refine ⟨j, hj, ?_⟩
  by_cases hji : j = i
  · subst hji
    simpa using ht
  · simpa [hji] using hb

theorem Begun.cases_update {tasks : ι → Registration F}
    (h : Begun world location (Function.update tasks i task) n) :
    Begun world location tasks n ∨ installs world (location i) = some n := by
  obtain ⟨j, hj, hb⟩ := h
  by_cases hji : j = i
  · subst hji
    exact .inr hj
  · exact .inl ⟨j, hj, by simpa [hji] using hb⟩

omit [DecidableEq ι] in
theorem Progress.own (h : Progress world format storageOptions location runtime p)
    (hi : p.2 i ≠ .spawned) (hn : installs world (location i) = some n) :
    p.1.tableOptions.extensions n = some (.default n) := h.installed n ⟨i, hn, hi⟩

/-- One task goes on, and the session becomes what it is now. -/
theorem Progress.act (h : Progress world format storageOptions location runtime p)
    (hopt : Shared runtime (Begun world location (Function.update p.2 i task)) now.tableOptions)
    (hext : ∀ n, p.1.tableOptions.extensions n = some (.default n) →
      now.tableOptions.extensions n = some (.default n))
    (hown : ∀ n, installs world (location i) = some n →
      now.tableOptions.extensions n = some (.default n))
    (hkeep : ∀ j url store, p.2 j = .done url store → now.stores url.key = some store)
    (hnew : ∀ k, (∀ url store, task = .done url store → url.key ≠ k) →
      now.stores k = p.1.stores k)
    (hnot : ∀ url store, p.2 i ≠ .done url store) (hbegun : task ≠ .spawned)
    (htask : Standing world format storageOptions runtime
      (Begun world location (Function.update p.2 i task)) (location i) now.stores task) :
    Progress world format storageOptions location runtime (now, Function.update p.2 i task) where
  options := hopt
  installed n hn := by
    rcases hn.cases_update with hn | hn
    · exact hext n (h.installed n hn)
    · exact hown n hn
  untouched k hk := by
    have hself : ∀ url store, task = .done url store → url.key ≠ k := by
      simpa using hk i
    rw [hnew k hself]
    apply h.untouched k
    intro j url store hj
    by_cases hji : j = i
    · subst hji
      exact absurd hj (hnot url store)
    · exact hk j url store (by simpa [hji] using hj)
  tasks j := by
    by_cases hji : j = i
    · subst hji
      simpa using htask
    · simpa [hji] using (h.tasks j).mono (fun _ hn => hn.update hbegun) (hkeep j)

omit [DecidableEq ι] in
theorem Progress.store_of_done (h : Progress world format storageOptions location runtime p)
    (hi : p.2 i = .done url store) : p.1.stores url.key = some store := by
  have hstand := h.tasks i
  rw [hi] at hstand
  exact hstand.2.2

/-- A task goes on and leaves the session alone. -/
theorem Progress.move (h : Progress world format storageOptions location runtime p)
    (hown : ∀ n, installs world (location i) = some n →
      p.1.tableOptions.extensions n = some (.default n))
    (hnot : ∀ url store, p.2 i ≠ .done url store) (hbegun : task ≠ .spawned)
    (hstop : ∀ url store, task ≠ .done url store)
    (htask : Standing world format storageOptions runtime (Begun world location p.2) (location i)
      p.1.stores task) :
    Progress world format storageOptions location runtime (p.1, Function.update p.2 i task) := by
  have hle : ∀ n, Begun world location p.2 n → Begun world location (Function.update p.2 i task) n :=
    fun _ hn => hn.update hbegun
  refine h.act (h.options.mono hle) (fun _ hn => hn) hown (fun _ _ _ hj => h.store_of_done hj)
    (fun _ _ => rfl) hnot hbegun (htask.mono hle ?_)
  intro url store ht
  exact absurd ht (hstop url store)

/-- A scheme whose stores are looked up: what a task finds it writes back. -/
theorem Builds.stores_of_unmanaged
    (h : Builds world format storageOptions runtime installed url store)
    (hm : managed url.scheme = false) : runtime.stores url.key = some store := by
  obtain ⟨copy, -, ho⟩ := h
  obtain ⟨options, -, hs⟩ := outcome_eq_ok_iff.mp ho
  rw [getObjectStore_unmanaged hm] at hs
  cases hfound : runtime.stores url.key with
  | some found =>
    simp only [hfound, Except.ok.injEq] at hs
    rw [hs]
  | none => simp [hfound] at hs

omit [DecidableEq ι] in
theorem Progress.unmanaged (h : Progress world format storageOptions location runtime p)
    {k : StoreKey} (hk : managed k.scheme = false) : p.1.stores k = runtime.stores k := by
  by_cases hdone : ∀ i url store, p.2 i = .done url store → url.key ≠ k
  · exact h.untouched k hdone
  · push Not at hdone
    obtain ⟨i, url, store, hi, rfl⟩ := hdone
    have hstand := h.tasks i
    rw [hi] at hstand
    rw [hstand.2.2, hstand.2.1.stores_of_unmanaged hk]

theorem Progress.start (h : (registrations world format storageOptions location runtime).start p) :
    Progress world format storageOptions location runtime p where
  options := by
    rw [h.1]
    exact .start
  installed n hn := by
    obtain ⟨i, -, hi⟩ := hn
    exact absurd (h.2 i) hi
  untouched k _ := by rw [h.1]
  tasks i := by
    rw [show p.2 i = .spawned from h.2 i]
    trivial

omit [DecidableEq ι] in
theorem Progress.getObjectStore (h : Progress world format storageOptions location runtime p)
    (options : TableOptions F) :
    getObjectStore world p.1.stores url options = getObjectStore world runtime.stores url options :=
  getObjectStore_stores fun hm => h.unmanaged hm

omit [DecidableEq ι] in
theorem Progress.copied (h : Progress world format storageOptions location runtime p)
    (hi : p.2 i = .installed url) :
    Copied runtime (Begun world location p.2) url p.1.tableOptions := by
  have hstand := h.tasks i
  rw [hi] at hstand
  refine ⟨h.options, fun n hn => h.own (i := i) (by simp [hi]) ?_⟩
  rw [installs, show world.parse (location i) = .ok url from hstand]
  exact hn

/-- The first step of a task: it takes in where it goes, and installs what it needs. -/
theorem Progress.step_spawned (h : Progress world format storageOptions location runtime p)
    (hi : p.2 i = .spawned)
    (hs : registerObjectStoreAndConfigExtensions world format storageOptions (location i)
      (p.1, .spawned) = some (now, task)) :
    Progress world format storageOptions location runtime (now, Function.update p.2 i task) := by
  have hnot : ∀ url store, p.2 i ≠ .done url store := by simp [hi]
  rw [registerObjectStoreAndConfigExtensions] at hs
  cases hp : world.parse (location i) with
  | error e =>
    simp only [hp, Option.some.injEq, Prod.mk.injEq] at hs
    obtain ⟨rfl, rfl⟩ := hs
    apply h.move (by simp [installs, hp]) hnot (by simp) (by simp)
    intro url hurl
    cases hp.symm.trans hurl
  | ok url =>
    cases hn : schemeNamespace url.scheme with
    | none =>
      simp only [hp, hn, Option.some.injEq, Prod.mk.injEq] at hs
      obtain ⟨rfl, rfl⟩ := hs
      exact h.move (by simp [installs, hp, hn]) hnot (by simp) (by simp) hp
    | some n =>
      simp only [hp, hn, Option.some.injEq, Prod.mk.injEq] at hs
      obtain ⟨rfl, rfl⟩ := hs
      have hself : installs world (location i) = some n := by simp [installs, hp, hn]
      have hopt : Shared runtime
          (Begun world location (Function.update p.2 i (.installed url))) p.1.tableOptions :=
        h.options.mono fun _ hm => hm.update (by simp)
      refine h.act (hopt.install ⟨i, hself, by simp⟩) ?_ ?_ (fun _ _ _ hj => h.store_of_done hj)
        (fun _ _ => rfl) hnot (by simp) hp
      · intro m hm
        by_cases hmn : m = n
        · subst hmn
          simp [TableOptions.install]
        · simpa [TableOptions.install, hmn] using hm
      · intro m hm
        obtain rfl : n = m := Option.some.inj (hself.symm.trans hm)
        simp [TableOptions.install]

theorem Progress.step_installed (h : Progress world format storageOptions location runtime p)
    (hi : p.2 i = .installed url)
    (hs : registerObjectStoreAndConfigExtensions world format storageOptions (location i)
      (p.1, .installed url) = some (now, task)) :
    Progress world format storageOptions location runtime (now, Function.update p.2 i task) := by
  have hnot : ∀ url store, p.2 i ≠ .done url store := by simp [hi]
  have hown := fun n => h.own (i := i) (n := n) (by simp [hi])
  have hp : world.parse (location i) = .ok url := by simpa [hi, Standing] using h.tasks i
  have hc := h.copied hi
  rw [registerObjectStoreAndConfigExtensions] at hs
  cases ha : alterCopy world format storageOptions url p.1.tableOptions with
  | error e =>
    simp only [ha, Option.some.injEq, Prod.mk.injEq] at hs
    obtain ⟨rfl, rfl⟩ := hs
    apply h.move hown hnot (by simp) (by simp)
    intro url' hurl
    obtain rfl : url = url' := Except.ok.inj (hp.symm.trans hurl)
    exact ⟨_, hc, by rw [outcome, ha]; rfl⟩
  | ok options =>
    simp only [ha, Option.some.injEq, Prod.mk.injEq] at hs
    obtain ⟨rfl, rfl⟩ := hs
    exact h.move hown hnot (by simp) (by simp) ⟨hp, _, hc, ha⟩

theorem Progress.step_altered (h : Progress world format storageOptions location runtime p)
    {options : TableOptions F} (hi : p.2 i = .altered url options)
    (hs : registerObjectStoreAndConfigExtensions world format storageOptions (location i)
      (p.1, .altered url options) = some (now, task)) :
    Progress world format storageOptions location runtime (now, Function.update p.2 i task) := by
  have hnot : ∀ url store, p.2 i ≠ .done url store := by simp [hi]
  have hown := fun n => h.own (i := i) (n := n) (by simp [hi])
  obtain ⟨hp, copy, hc, ha⟩ : world.parse (location i) = .ok url ∧ ∃ copy,
      Copied runtime (Begun world location p.2) url copy ∧
        alterCopy world format storageOptions url copy = .ok options := by
    simpa [hi, Standing] using h.tasks i
  rw [registerObjectStoreAndConfigExtensions, h.getObjectStore] at hs
  cases hg : Context.getObjectStore world runtime.stores url options with
  | error e =>
    simp only [hg, Option.some.injEq, Prod.mk.injEq] at hs
    obtain ⟨rfl, rfl⟩ := hs
    apply h.move hown hnot (by simp) (by simp)
    intro url' hurl
    obtain rfl : url = url' := Except.ok.inj (hp.symm.trans hurl)
    exact ⟨copy, hc, by rw [outcome, ha]; exact hg⟩
  | ok store =>
    simp only [hg, Option.some.injEq, Prod.mk.injEq] at hs
    obtain ⟨rfl, rfl⟩ := hs
    exact h.move hown hnot (by simp) (by simp)
      ⟨hp, copy, hc, outcome_eq_ok_iff.mpr ⟨options, ha, hg⟩⟩

/-- A task registers its store; whoever registered one under the same key registered the same. -/
theorem Progress.step_built (h : Progress world format storageOptions location runtime p)
    (hi : p.2 i = .built url store) :
    Progress world format storageOptions location runtime
      ({ p.1 with stores := Function.update p.1.stores url.key (some store) },
        Function.update p.2 i (.done url store)) := by
  have hle : ∀ n, Begun world location p.2 n →
      Begun world location (Function.update p.2 i (.done url store)) n :=
    fun _ hn => hn.update (by simp)
  obtain ⟨hp, copy, hc, ho⟩ : world.parse (location i) = .ok url ∧
      Builds world format storageOptions runtime (Begun world location p.2) url store := by
    simpa [hi, Standing] using h.tasks i
  refine h.act (h.options.mono hle) (fun _ hn => hn) (fun n => h.own (i := i) (by simp [hi])) ?_ ?_
    (by simp [hi]) (by simp) ⟨hp, ⟨copy, hc.mono hle, ho⟩, by simp⟩
  · intro j url' store' hj
    have hdone := h.tasks j
    rw [hj] at hdone
    obtain ⟨-, ⟨copy', hc', ho'⟩, hstore⟩ := hdone
    by_cases hk : url'.key = url.key
    · simp [hk, outcome_unique hc hc' hk ho ho']
    · simpa [hk] using hstore
  · intro k hk
    simp [Function.update_of_ne (hk url store rfl).symm]

theorem Progress.step (h : Progress world format storageOptions location runtime p) {a : ι × Unit}
    (hs : (registrations world format storageOptions location runtime).step p a q) :
    Progress world format storageOptions location runtime q := by
  obtain ⟨now, task, hs, rfl⟩ := hs
  change registerObjectStoreAndConfigExtensions world format storageOptions (location a.1)
    (p.1, p.2 a.1) = some (now, task) at hs
  cases hi : p.2 a.1 with
  | spawned => exact h.step_spawned hi (hi ▸ hs)
  | installed url => exact h.step_installed hi (hi ▸ hs)
  | altered url options => exact h.step_altered hi (hi ▸ hs)
  | built url store =>
    rw [hi, registerObjectStoreAndConfigExtensions] at hs
    obtain ⟨rfl, rfl⟩ := Prod.mk.inj (Option.some.inj hs)
    exact h.step_built hi
  | done url store =>
    rw [hi] at hs
    cases hs
  | failed e =>
    rw [hi] at hs
    cases hs

theorem Progress.of_reachable
    (h : (registrations world format storageOptions location runtime).Reachable p) :
    Progress world format storageOptions location runtime p :=
  System.reachable_invariant (fun _ => Progress.start) (fun _ _ _ hs hp => hp.step hs) h

end XorqDatafusion.Context
