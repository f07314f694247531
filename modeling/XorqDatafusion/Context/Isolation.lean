import XorqDatafusion.Context.TaskOrder

/-! File registrations that run at the same time, each with storage options of its own: none of them uses
what another was given. -/
namespace XorqDatafusion.Context

open Fallible Transition

variable {F ι : Type} [DecidableEq ι] {world : Outside F} {format : ι → ConfigFileType}
  {storageOptions : ι → List (String × String)} {location : ι → String} {runtime : Runtime F}
  {options : List (String × String)} {fields : ConfigFields F} {t u : TableOptions F} {n : Namespace}
  {url : TableUrl} {store : Store} {task : Registration F} {i : ι}
  {p q : Runtime F × (ι → Registration F)}

/-- The tasks of any calls of `register_csv` and `register_parquet`, over the session they share. -/
def calls (world : Outside F) (format : ι → ConfigFileType)
    (storageOptions : ι → List (String × String)) (location : ι → String) (runtime : Runtime F) :
    System (Runtime F × (ι → Registration F)) (ι × Unit) :=
  family (fun i => registration world (format i) (storageOptions i) (location i)) runtime

/-- What storage options make of an extension as it is installed. -/
def extensionOf (fields : ConfigFields F) (options : List (String × String)) (n : Namespace) :
    Except ContextError (Extension n) :=
  (options.filter fun entry => keyNamespace entry.1 = some n).foldlM
    (fun extension entry => extension.set fields entry.1 entry.2) (.default n)

/-- The store that comes of a URL, these storage options and the environment, whatever the session has. -/
def Own (world : Outside F) (options : List (String × String)) (url : TableUrl) (store : Store) : Prop :=
  match schemeNamespace url.scheme with
  | none => ∀ stores (t : TableOptions F), getObjectStore world stores url t = .ok store
  | some n => ∃ e, extensionOf world.fields options n = .ok e ∧
      ∀ stores (t : TableOptions F), t.extensions n = some e →
        getObjectStore world stores url t = .ok store

/-- The options of an extension are set one after the other, and the others pass it by. -/
theorem extension_of_alter {e : Extension n} (he : t.extensions n = some e)
    (h : t.alter fields options = .ok u) : ∃ o, u.extensions n = some o ∧
      (options.filter fun entry => keyNamespace entry.1 = some n).foldlM
        (fun extension entry => extension.set fields entry.1 entry.2) e = .ok o := by
  induction options generalizing t e with
  | nil =>
    cases h
    exact ⟨e, he, rfl⟩
  | cons entry rest ih =>
    simp only [TableOptions.alter, List.foldlM_cons, bind_eq_ok_iff] at h
    obtain ⟨v, hv, h⟩ := h
    by_cases hk : keyNamespace entry.1 = some n
    · obtain ⟨e', o, he', ho, rfl⟩ := TableOptions.set_eq_ok_of_keyNamespace hk hv
      obtain rfl : e = e' := Option.some.inj (he.symm.trans he')
      obtain ⟨o', hu, hrest⟩ := ih (e := o) (by simp) h
      refine ⟨o', hu, ?_⟩
      rw [List.filter_cons_of_pos (by simpa using hk), List.foldlM_cons, ho]
      exact hrest
    · have hsame : v.extensions n = t.extensions n := by
        cases hm : keyNamespace entry.1 with
        | none =>
          obtain ⟨g, hg⟩ := TableOptions.set_of_keyNamespace_none fields entry.2 hm
          rw [hg] at hv
          obtain ⟨f, -, rfl⟩ := map_eq_ok_iff.mp hv
          rfl
        | some m =>
          obtain ⟨e', o, -, -, rfl⟩ := TableOptions.set_eq_ok_of_keyNamespace hm hv
          have hmn : n ≠ m := by
            rintro rfl
            exact hk hm
          simp [hmn]
      obtain ⟨o, hu, hrest⟩ := ih (e := e) (hsame.trans he) h
      refine ⟨o, hu, ?_⟩
      rw [List.filter_cons_of_neg (by simpa using hk)]
      exact hrest

/-- Options that have the extension its own options make it give a task its own store. -/
theorem own_of_getObjectStore {stores : StoreKey → Option Store} (hm : managed url.scheme = true)
    (hext : ∀ n, schemeNamespace url.scheme = some n → ∃ e, t.extensions n = some e ∧
      extensionOf world.fields options n = .ok e)
    (hg : getObjectStore world stores url t = .ok store) : Own world options url store := by
  have hbuilt (stores') (t' : TableOptions F) (hsame : ∀ n, schemeNamespace url.scheme = some n →
      t'.extensions n = t.extensions n) : getObjectStore world stores' url t' = .ok store := by
    have hread : managed url.scheme = false → stores' url.key = stores url.key := by simp [hm]
    rw [getObjectStore_stores hread]
    exact getObjectStore_ok hg rfl hsame
  unfold Own
  split
  · rename_i hn
    exact fun stores' t' => hbuilt stores' t' (by simp [hn])
  · rename_i n hn
    obtain ⟨e, he, ho⟩ := hext n hn
    refine ⟨e, ho, fun stores' t' ht => hbuilt stores' t' fun m hm => ?_⟩
    obtain rfl : n = m := Option.some.inj (hn.symm.trans hm)
    exact ht.trans he.symm

/-- For any other scheme the store is one that is registered. -/
theorem found_of_getObjectStore {stores : StoreKey → Option Store} (hm : managed url.scheme = false)
    (hg : getObjectStore world stores url t = .ok store) : stores url.key = some store := by
  rw [getObjectStore_unmanaged hm] at hg
  cases hfound : stores url.key with
  | none => simp [hfound] at hg
  | some found =>
    simp only [hfound, Except.ok.injEq] at hg
    rw [hg]

/-- What is true of a task by where it stands. -/
def Unmixed (world : Outside F) (options : List (String × String)) (stores : StoreKey → Option Store)
    (location : String) : Registration F → Prop
  | .spawned | .failed _ => True
  | .installed url => world.parse location = .ok url
  | .altered url altered => world.parse location = .ok url ∧
      ∀ n, schemeNamespace url.scheme = some n → ∃ e, altered.extensions n = some e ∧
        extensionOf world.fields options n = .ok e
  | .built url store | .done url store => world.parse location = .ok url ∧
      (managed url.scheme = true → Own world options url store) ∧
      (managed url.scheme = false → stores url.key = some store)

/-- What holds of any calls at any time; `runtime` is where they began. -/
structure Apart (world : Outside F) (storageOptions : ι → List (String × String))
    (location : ι → String) (runtime : Runtime F) (p : Runtime F × (ι → Registration F)) : Prop where
  options : Shared runtime (Asked world location) p.1.tableOptions
  own : ∀ i n, installs world (location i) = some n → p.2 i ≠ .spawned →
    p.1.tableOptions.extensions n = some (.default n)
  tasks : ∀ i, Unmixed world (storageOptions i) runtime.stores (location i) (p.2 i)
  unmanaged : ∀ k : StoreKey, managed k.scheme = false → p.1.stores k = runtime.stores k
  stores : ∀ k, p.1.stores k = runtime.stores k ∨
    ∃ i url store, p.2 i = .done url store ∧ url.key = k ∧ p.1.stores k = some store

/-- A task goes on and registers nothing. -/
theorem Apart.move (h : Apart world storageOptions location runtime p)
    (hopt : ∀ n, t.extensions n = p.1.tableOptions.extensions n ∨ t.extensions n = some (.default n))
    (hshared : Shared runtime (Asked world location) t)
    (hown : ∀ n, installs world (location i) = some n → t.extensions n = some (.default n))
    (hnot : ∀ url store, p.2 i ≠ .done url store)
    (htask : Unmixed world (storageOptions i) runtime.stores (location i) task) :
    Apart world storageOptions location runtime
      ({ p.1 with tableOptions := t }, Function.update p.2 i task) where
  options := hshared
  own j n hn hj := by
    by_cases hji : j = i
    · subst hji
      exact hown n hn
    · have hold := h.own j n hn (by simpa [hji] using hj)
      rcases hopt n with hsame | hdefault
      · exact hsame.trans hold
      · exact hdefault
  tasks j := by
    by_cases hji : j = i
    · subst hji
      simpa using htask
    · simpa [hji] using h.tasks j
  unmanaged := h.unmanaged
  stores k := by
    refine (h.stores k).imp id ?_
    rintro ⟨j, url, store, hj, hk, hstore⟩
    have hji : j ≠ i := by
      rintro rfl
      exact hnot url store hj
    exact ⟨j, url, store, by simpa [hji] using hj, hk, hstore⟩

/-- A task installs its extension. -/
theorem Apart.install (h : Apart world storageOptions location runtime p) (hi : p.2 i = .spawned)
    (hp : world.parse (location i) = .ok url) (hn : schemeNamespace url.scheme = some n) :
    Apart world storageOptions location runtime
      ({ p.1 with tableOptions := p.1.tableOptions.install n },
        Function.update p.2 i (.installed url)) := by
  have hasked : Asked world location n := ⟨i, by simp [installs, hp, hn]⟩
  refine h.move (fun m => ?_) (h.options.install hasked) (fun m hm => ?_) (by simp [hi]) hp
  · by_cases hmn : m = n
    · subst hmn
      exact .inr (by simp [TableOptions.install])
    · exact .inl (by simp [TableOptions.install, hmn])
  · obtain rfl : n = m := by simpa [installs, hp, hn] using hm
    simp [TableOptions.install]

/-- A task registers its store. -/
theorem Apart.register (h : Apart world storageOptions location runtime p)
    (hi : p.2 i = .built url store) : Apart world storageOptions location runtime
      ({ p.1 with stores := Function.update p.1.stores url.key (some store) },
        Function.update p.2 i (.done url store)) := by
  have htask := h.tasks i
  rw [hi] at htask
  have hmoved : Apart world storageOptions location runtime
      (p.1, Function.update p.2 i (.done url store)) :=
    h.move (fun _ => .inl rfl) h.options (fun n hn => h.own i n hn (by simp [hi])) (by simp [hi]) htask
  refine ⟨hmoved.options, hmoved.own, hmoved.tasks, fun k hk => ?_, fun k => ?_⟩
  · by_cases hkey : k = url.key
    · subst hkey
      simpa using (htask.2.2 hk).symm
    · simpa [hkey] using h.unmanaged k hk
  · by_cases hkey : k = url.key
    · subst hkey
      exact .inr ⟨i, url, store, by simp, rfl, by simp⟩
    · simpa [hkey] using hmoved.stores k

theorem Apart.step (h : Apart world storageOptions location runtime p) {a : ι × Unit}
    (hs : (calls world format storageOptions location runtime).step p a q) :
    Apart world storageOptions location runtime q := by
  obtain ⟨i, u⟩ := a
  obtain ⟨now, task, hs, rfl⟩ := hs
  change registerObjectStoreAndConfigExtensions world (format i) (storageOptions i) (location i)
    (p.1, p.2 i) = some (now, task) at hs
  have hstand := h.tasks i
  cases hi : p.2 i with
  | spawned =>
    rw [hi, registerObjectStoreAndConfigExtensions] at hs
    have hnot : ∀ url store, p.2 i ≠ .done url store := by simp [hi]
    cases hp : world.parse (location i) with
    | error e =>
      simp only [hp, Option.some.injEq, Prod.mk.injEq] at hs
      obtain ⟨rfl, rfl⟩ := hs
      exact h.move (fun _ => .inl rfl) h.options (by simp [installs, hp]) hnot trivial
    | ok url =>
      cases hn : schemeNamespace url.scheme with
      | none =>
        simp only [hp, hn, Option.some.injEq, Prod.mk.injEq] at hs
        obtain ⟨rfl, rfl⟩ := hs
        exact h.move (fun _ => .inl rfl) h.options (by simp [installs, hp, hn]) hnot hp
      | some n =>
        simp only [hp, hn, Option.some.injEq, Prod.mk.injEq] at hs
        obtain ⟨rfl, rfl⟩ := hs
        exact h.install hi hp hn
  | installed url =>
    rw [hi, registerObjectStoreAndConfigExtensions] at hs
    rw [hi] at hstand
    have hnot : ∀ url store, p.2 i ≠ .done url store := by simp [hi]
    have hown := fun n hn => h.own i n hn (by simp [hi])
    cases ha : alterCopy world (format i) (storageOptions i) url p.1.tableOptions with
    | error e =>
      simp only [ha, Option.some.injEq, Prod.mk.injEq] at hs
      obtain ⟨rfl, rfl⟩ := hs
      exact h.move (fun _ => .inl rfl) h.options hown hnot trivial
    | ok altered =>
      simp only [ha, Option.some.injEq, Prod.mk.injEq] at hs
      obtain ⟨rfl, rfl⟩ := hs
      refine h.move (fun _ => .inl rfl) h.options hown hnot ⟨hstand, fun n hn => ?_⟩
      -- The copy has the extension as it is installed, and the own options are all it is altered by.
      have hp : world.parse (location i) = .ok url := hstand
      have hdefault := hown n (by simp [installs, hp, hn])
      simp only [alterCopy, hn] at ha
      exact extension_of_alter (t := p.1.tableOptions.setConfigFormat (format i)) hdefault ha
  | altered url altered =>
    rw [hi, registerObjectStoreAndConfigExtensions] at hs
    rw [hi] at hstand
    obtain ⟨hp, hext⟩ := hstand
    have hnot : ∀ url store, p.2 i ≠ .done url store := by simp [hi]
    have hown := fun n hn => h.own i n hn (by simp [hi])
    cases hg : getObjectStore world p.1.stores url altered with
    | error e =>
      simp only [hg, Option.some.injEq, Prod.mk.injEq] at hs
      obtain ⟨rfl, rfl⟩ := hs
      exact h.move (fun _ => .inl rfl) h.options hown hnot trivial
    | ok store =>
      simp only [hg, Option.some.injEq, Prod.mk.injEq] at hs
      obtain ⟨rfl, rfl⟩ := hs
      refine h.move (fun _ => .inl rfl) h.options hown hnot ⟨hp, fun hm => ?_, fun hm => ?_⟩
      · exact own_of_getObjectStore hm hext hg
      · rw [← h.unmanaged _ hm]
        exact found_of_getObjectStore hm hg
  | built url store =>
    rw [hi, registerObjectStoreAndConfigExtensions] at hs
    obtain ⟨rfl, rfl⟩ := Prod.mk.inj (Option.some.inj hs)
    exact h.register hi
  | done url store =>
    rw [hi] at hs
    cases hs
  | failed e =>
    rw [hi] at hs
    cases hs

theorem Apart.start (hp : (calls world format storageOptions location runtime).start p) :
    Apart world storageOptions location runtime p := by
  obtain ⟨hr, hspawned⟩ := hp
  have hspawned : ∀ i, p.2 i = .spawned := hspawned
  refine ⟨hr ▸ .start, fun i n hn hi => ?_, fun i => ?_, fun k _ => ?_, fun k => ?_⟩
  · exact absurd (hspawned i) hi
  · simp [hspawned i, Unmixed]
  · rw [hr]
  · rw [hr]
    exact .inl rfl

theorem Apart.of_reachable (h : (calls world format storageOptions location runtime).Reachable p) :
    Apart world storageOptions location runtime p :=
  System.reachable_invariant (T := calls world format storageOptions location runtime)
    (fun _ hp => .start hp) (fun _ _ _ hs hq => hq.step hs) h

/-- Whatever calls run at the same time and however their tasks interleave, a task that is done has the
store its own URL and its own storage options give it, each store there is in the session is one it
began with or that of a task that is done, and no storage option ever stays in the session. -/
theorem registrations_kept_apart
    (h : (calls world format storageOptions location runtime).Reachable p) :
    (∀ i url store, p.2 i = .done url store → world.parse (location i) = .ok url ∧
      (managed url.scheme = true → Own world (storageOptions i) url store) ∧
      (managed url.scheme = false → runtime.stores url.key = some store)) ∧
    (∀ k, p.1.stores k = runtime.stores k ∨ ∃ i url store, p.2 i = .done url store ∧ url.key = k ∧
      p.1.stores k = some store) ∧
    Shared runtime (Asked world location) p.1.tableOptions := by
  have hapart := Apart.of_reachable h
  refine ⟨fun i url store hi => ?_, hapart.stores, hapart.options⟩
  have htask := hapart.tasks i
  rw [hi] at htask
  exact htask

/-- A step of one of the calls, as the code takes it. -/
def callsStep (world : Outside F) (format : ι → ConfigFileType)
    (storageOptions : ι → List (String × String)) (location : ι → String) (i : ι)
    (p : Runtime F × (ι → Registration F)) : Option (Runtime F × (ι → Registration F)) :=
  (registerObjectStoreAndConfigExtensions world (format i) (storageOptions i) (location i)
    (p.1, p.2 i)).map fun q => (q.1, Function.update p.2 i q.2)

theorem reachable_of_replay {order : List ι}
    (h : System.replay (callsStep world format storageOptions location) order
      (runtime, fun _ => .spawned) = some p) :
    (calls world format storageOptions location runtime).Reachable p := by
  have hstep : ∀ i p q, callsStep world format storageOptions location i p = some q →
      (calls world format storageOptions location runtime).step p (i, ()) q := by
    intro i p q hq
    obtain ⟨r, hr, rfl⟩ := Option.map_eq_some_iff.mp hq
    exact ⟨r.1, r.2, hr, rfl⟩
  obtain ⟨xs, hrun, -⟩ := System.replay_run (g := fun i => (i, ())) hstep h
  exact ⟨(runtime, fun _ => .spawned), xs, ⟨rfl, fun _ => rfl⟩, hrun⟩

section TwoKeys

def otherKeys : List (String × String) :=
  [("aws.access_key_id", "other key"), ("aws.secret_access_key", "other secret")]

def keysOf (other : Bool) : List (String × String) := bif other then otherKeys else awsKeys

def lakeFile : TableUrl := ⟨⟨"s3", some "lake", none⟩, "s3://lake/a.parquet", false⟩

def lakeStore (key secret : String) : Store :=
  .amazonS3 { bucketName := some "lake", accessKeyId := some key, secretAccessKey := some secret }

/-- Two calls for the same bucket take turns, and each uses the keys it was given. -/
theorem registrations_kept_apart_twoKeys : ∃ p,
    (calls twoClouds (fun _ => .parquet) keysOf (fun _ => lakeFile.text) newSession).Reachable p ∧
    p.2 false = .done lakeFile (lakeStore "key" "secret") ∧
    p.2 true = .done lakeFile (lakeStore "other key" "other secret") ∧
    Own twoClouds awsKeys lakeFile (lakeStore "key" "secret") ∧
    Own twoClouds otherKeys lakeFile (lakeStore "other key" "other secret") := by
  obtain ⟨p, hp, hmine, hother⟩ : ∃ p, System.replay
      (callsStep twoClouds (fun _ => .parquet) keysOf fun _ => lakeFile.text)
      [false, true, true, false, false, true, false, true] (newSession, fun _ => .spawned) = some p ∧
      p.2 false = .done lakeFile (lakeStore "key" "secret") ∧
      p.2 true = .done lakeFile (lakeStore "other key" "other secret") := ⟨_, rfl, rfl, rfl⟩
  have hreach := reachable_of_replay hp
  have hdone := (registrations_kept_apart hreach).1
  exact ⟨p, hreach, hmine, hother, (hdone false _ _ hmine).2.1 rfl, (hdone true _ _ hother).2.1 rfl⟩

end TwoKeys

end XorqDatafusion.Context
