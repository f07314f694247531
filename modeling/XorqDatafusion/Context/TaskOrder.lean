import XorqDatafusion.Context.Schedules

/-! Whether the order of the registration tasks decides what gets registered. -/
namespace XorqDatafusion.Context

open Fallible Transition

variable {F : Type} {ι : Type} {world : Outside F} {format : ConfigFileType}
  {storageOptions : List (String × String)} {location : ι → String} {runtime : Runtime F}
  {url : TableUrl} {store : Store} {copy copy' : TableOptions F} {n m : Namespace} {i : ι}
  {p q : Runtime F × (ι → Registration F)}

/-- This path gets its store if, and only if, a path of the other kind has installed its extension
before: the storage options have keys for both. -/
def Races (world : Outside F) (format : ConfigFileType) (storageOptions : List (String × String))
    (location : ι → String) (runtime : Runtime F) (i : ι) : Prop :=
  ∃ url n m, world.parse (location i) = .ok url ∧ schemeNamespace url.scheme = some n ∧ m ≠ n ∧
    Uses storageOptions m ∧ runtime.tableOptions.extensions m = none ∧ Asked world location m ∧
    ∃ store, outcome world format storageOptions runtime.stores url
      ((runtime.tableOptions.install m).install n) = .ok store

theorem isSome_of_install_both (hmn : m ≠ n) (t : TableOptions F) (k : Namespace) :
    (((t.install m).install n).extensions k).isSome := by
  cases n <;> cases m <;> cases k <;> first | exact absurd rfl hmn | rfl

theorem copied_install_both (hp : world.parse (location i) = .ok url)
    (hn : schemeNamespace url.scheme = some n) (hm : Asked world location m) :
    Copied runtime (Asked world location) url ((runtime.tableOptions.install m).install n) := by
  refine ⟨(Shared.start.install hm).install ⟨i, by rw [installs_of_parse hp, hn]⟩, ?_⟩
  intro k hk
  obtain rfl : n = k := Option.some.inj (hn.symm.trans hk)
  simp [TableOptions.install]

/-- A task that does not race gets its store whatever the others had installed. -/
theorem outcome_settled (hr : ¬Races world format storageOptions location runtime i)
    (hp : world.parse (location i) = .ok url) (hc : Copied runtime (Asked world location) url copy)
    (hc' : Copied runtime (Asked world location) url copy')
    (ho : outcome world format storageOptions runtime.stores url copy = .ok store) :
    outcome world format storageOptions runtime.stores url copy' = .ok store := by
  apply outcome_of_copied hc hc' rfl ho
  intro n hn m hm hsome
  by_contra hnone
  have hmn : m ≠ n := by
    rintro rfl
    simp [hc'.own m hn] at hnone
  have hinit : runtime.tableOptions.extensions m = none := by
    rcases hc'.extensions m with h | ⟨-, h⟩
    · rwa [h, Option.not_isSome_iff_eq_none] at hnone
    · simp [h] at hnone
  have hother : Asked world location m := by
    rcases hc.extensions m with h | ⟨h, -⟩
    · rw [h, hinit] at hsome
      cases hsome
    · exact h
  exact hr ⟨url, n, m, hp, hn, hmn, hm, hinit, hother, store,
    outcome_of_copied hc (copied_install_both hp hn hother) rfl ho
      fun _ _ k _ _ => isSome_of_install_both hmn _ k⟩

theorem Progress.done_of_done (hp : Progress world format storageOptions location runtime p)
    (hq : Progress world format storageOptions location runtime q)
    (hr : ¬Races world format storageOptions location runtime i) (hi : p.2 i = .done url store)
    (hover : (q.2 i).over = true) : q.2 i = .done url store := by
  have hstand := hp.tasks i
  rw [hi] at hstand
  obtain ⟨hparse, ⟨copy, hc, ho⟩, -⟩ := hstand
  have hstand' := hq.tasks i
  cases hi' : q.2 i with
  | done url' store' =>
    rw [hi'] at hstand'
    obtain ⟨hparse', ⟨copy', hc', ho'⟩, -⟩ := hstand'
    obtain rfl : url = url' := Except.ok.inj (hparse.symm.trans hparse')
    rw [outcome_unique (hc.mono fun _ hn => hn.asked) (hc'.mono fun _ hn => hn.asked) rfl ho ho']
  | failed e =>
    rw [hi'] at hstand'
    obtain ⟨copy', hc', ho'⟩ := hstand' url hparse
    have hsettled := outcome_settled hr hparse (hc.mono fun _ hn => hn.asked)
      (hc'.mono fun _ hn => hn.asked) ho
    cases hsettled.symm.trans ho'
  | _ =>
    rw [hi'] at hover
    cases hover

theorem Progress.failing_subset (hp : Progress world format storageOptions location runtime p)
    (hq : Progress world format storageOptions location runtime q)
    (hr : ∀ i, ¬Races world format storageOptions location runtime i) (hover : Finished p)
    (hover' : Finished q) : failing q ⊆ failing p := by
  intro i hi
  rcases Registration.over_cases (hover i) with ⟨url, store, hd⟩ | hf
  · exact absurd hi (notMem_failing (hp.done_of_done hq (hr i) hd (hover' i)))
  · exact hf

theorem Progress.stores_eq (hp : Progress world format storageOptions location runtime p)
    (hq : Progress world format storageOptions location runtime q)
    (hr : ∀ i, ¬Races world format storageOptions location runtime i) (hover : Finished p)
    (hover' : Finished q) : p.1.stores = q.1.stores := by
  funext k
  by_cases hk : ∀ i url store, p.2 i = .done url store → url.key ≠ k
  · rw [hp.untouched k hk, hq.untouched k]
    intro i url store hi
    exact hk i url store (hq.done_of_done hp (hr i) hi (hover i))
  · push Not at hk
    obtain ⟨i, url, store, hi, rfl⟩ := hk
    rw [hp.store_of_done hi, hq.store_of_done (hp.done_of_done hq (hr i) hi (hover' i))]

theorem Races.not_succeedsFirst (hr : Races world format storageOptions location runtime i) :
    ¬SucceedsFirst world format storageOptions runtime (location i) := by
  obtain ⟨url, n, m, hp, hn, hmn, hm, hinit, -⟩ := hr
  rintro ⟨url', store, hp', ho⟩
  obtain rfl : url = url' := Except.ok.inj (hp.symm.trans hp')
  have hsome := isSome_of_outcome ho hn hm
  have hne : schemeNamespace url.scheme ≠ some m := by
    rw [hn]
    intro heq
    exact hmn (Option.some.inj heq).symm
  simp [ownOptions_other _ hne, hinit] at hsome

theorem Races.failing_differ [DecidableEq ι] [Fintype ι]
    (hr : Races world format storageOptions location runtime i) :
    ∃ p q, (registrations world format storageOptions location runtime).Reachable p ∧
      (registrations world format storageOptions location runtime).Reachable q ∧ Finished p ∧
      Finished q ∧ i ∈ failing p ∧ i ∉ failing q := by
  have hstart : (registrations world format storageOptions location runtime).Reachable
      (runtime, fun _ => .spawned) := reachable_start
  obtain ⟨p₀, hp₀, hfail, -⟩ := exists_failed hstart (fun j => j = i) (installs world (location i))
    (fun j hj => by rw [hj]) (fun j hj => by rw [hj]; exact hr.not_succeedsFirst)
  obtain ⟨p, hp, hover, -, hkeep⟩ := exists_over (fun _ => True) hp₀
  obtain ⟨url, n, m, hparse, hn, hmn, hm, hinit, hother, store, ho⟩ := hr
  obtain ⟨q, hq, hqf, hdone, -⟩ := exists_done hstart hparse
    ⟨_, copied_install_both hparse hn hother, ho⟩ rfl
  refine ⟨p, q, hp, hq, fun j => hover j trivial, hqf, ?_, notMem_failing hdone⟩
  have hover₀ : (p₀.2 i).over = true := by
    have hf := hfail i rfl
    cases hi : p₀.2 i <;> simp [hi, Registration.isFailed, Registration.over] at hf ⊢
  change (p.2 i).isFailed = true
  rw [hkeep i hover₀, hfail i rfl]

/-- The order of the tasks decides nothing exactly when no path races with another. -/
theorem registrations_confluent_iff (world : Outside F) (format : ConfigFileType)
    (storageOptions : List (String × String)) (paths : List String) (runtime : Runtime F) :
    (∀ p q, (registrations world format storageOptions paths.get runtime).Reachable p →
      (registrations world format storageOptions paths.get runtime).Reachable q →
      Finished p → Finished q → p.1.stores = q.1.stores ∧ failing p = failing q) ↔
    ∀ i, ¬Races world format storageOptions paths.get runtime i := by
  constructor
  · intro h i hr
    obtain ⟨p, q, hp, hq, hpf, hqf, hfail, hnot⟩ := hr.failing_differ
    rw [(h p q hp hq hpf hqf).2] at hfail
    exact hnot hfail
  · intro hr p q hp hq hpf hqf
    have hpp := Progress.of_reachable hp
    have hqq := Progress.of_reachable hq
    refine ⟨hpp.stores_eq hqq hr hpf hqf, ?_⟩
    exact Set.Subset.antisymm (hqq.failing_subset hpp hr hqf hpf) (hpp.failing_subset hqq hr hpf hqf)

section TwoClouds

/-- A file on each of two clouds, and a process with the provider of an empty environment. -/
def twoClouds : Outside Unit where
  parse location :=
    if location = "s3://lake/a.parquet" then .ok ⟨⟨"s3", some "lake", none⟩, location, false⟩
    else if location = "gs://lake/b.parquet" then .ok ⟨⟨"gs", some "lake", none⟩, location, false⟩
    else .error (.outside "relative URL without a base")
  fields := {
    string _ value := .ok value
    bool _ value := .ok (value == "true")
    format _ _ _ options := .ok options }
  s3FromEnv := {}
  gcsFromEnv := {}
  awsRegion := none
  awsCredentials := some "default chain"
  urlScheme _ := none
  buildS3 _ := .ok ()
  buildGcs _ := .ok ()
  buildHttp _ := .ok ()

def awsKeys : List (String × String) :=
  [("aws.access_key_id", "key"), ("aws.secret_access_key", "secret")]

def newSession : Runtime Unit := ⟨⟨none, (), fun _ => none⟩, fun _ => none⟩

/-- With keys for S3, the file on the other cloud is found or not as the S3 task is faster or not. -/
theorem order_decides : ∃ p q,
    (registrations twoClouds .parquet awsKeys ["s3://lake/a.parquet", "gs://lake/b.parquet"].get
      newSession).Reachable p ∧
    (registrations twoClouds .parquet awsKeys ["s3://lake/a.parquet", "gs://lake/b.parquet"].get
      newSession).Reachable q ∧
    Finished p ∧ Finished q ∧ failing p ≠ failing q := by
  have hr : Races twoClouds .parquet awsKeys ["s3://lake/a.parquet", "gs://lake/b.parquet"].get
      newSession 1 := by
    refine ⟨⟨⟨"gs", some "lake", none⟩, "gs://lake/b.parquet", false⟩, .gcp, .aws, rfl, rfl, nofun,
      by decide, rfl, ⟨0, by decide⟩, ?_⟩
    exact ⟨.googleCloudStorage { bucketName := some "lake" }, rfl⟩
  obtain ⟨p, q, hp, hq, hpf, hqf, hfail, hnot⟩ := hr.failing_differ
  refine ⟨p, q, hp, hq, hpf, hqf, ?_⟩
  intro heq
  rw [heq] at hfail
  exact hnot hfail

end TwoClouds

end XorqDatafusion.Context
