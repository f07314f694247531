import XorqDatafusion.Context.Files
import XorqDatafusion.Context.TaskOrder

/-! When a call that registers files reports the failures of its tasks. -/
namespace XorqDatafusion.Context

open Fallible Transition

variable {F S P : Type} {files : Files F S P} {σ σ' : Session F P} {name : String}
  {paths : List String} {storageOptions : List (String × String)} {options : ReadOptions S}
  {url : TableUrl} {urls : List TableUrl} {schema : S} {runtime : Runtime F}
  {failed : Set (Fin paths.length)} {ending : Session F P × Except CallError Unit}
  {q : Runtime F × (Fin paths.length → Registration F)} {i j : Fin paths.length}

/-- A failed path is an error of the call, and an error of the call leaves the tables as they were. -/
def AllOrNothing (σ : Session F P) (failed : Set (Fin paths.length))
    (ending : Session F P × Except CallError Unit) : Prop :=
  (failed.Nonempty → ∃ e, ending.2 = .error e) ∧
    ∀ e, ending.2 = .error e → ending.1.catalogs = σ.catalogs

/-- The call gets this schema although some path fails. Without an explicit schema that is one read
through a store for the URL: one that another path has registered in the same call, or, where all
paths that go to the same place fail, one registered before. -/
def SchemaDespite (files : Files F S P) (runtime : Runtime F) (paths : List String)
    (storageOptions : List (String × String)) (options : ReadOptions S) (url : TableUrl) (schema : S) :
    Prop :=
  let fails (i : Fin paths.length) : Prop :=
    ¬SucceedsFirst files.outside options.format storageOptions runtime (paths.get i)
  let reads (store : Store) : Prop :=
    files.inferSchema options runtime.tableOptions.formatOptions url store = .ok schema
  match options.schema with
  | some explicit => explicit = schema ∧ ∃ i, fails i
  | none =>
    (∃ i j url' store, i ≠ j ∧ fails i ∧ files.outside.parse (paths.get j) = .ok url' ∧
      url'.key = url.key ∧ Builds files.outside options.format storageOptions runtime
        (Asked files.outside paths.get) url' store ∧ reads store) ∨
    (∀ i url', files.outside.parse (paths.get i) = .ok url' → url'.key = url.key → fails i) ∧
      ∃ store, runtime.stores url.key = some store ∧ reads store

/-- With this schema, the call makes a table and registers it. -/
def Accepted (files : Files F S P) (σ : Session F P) (name : String) (options : ReadOptions S)
    (urls : List TableUrl) (schema : S) : Prop :=
  (∀ url ∈ urls, checkExtension options.fileExtension url = .ok ()) ∧ ∃ table σ',
    files.listingTable urls options σ.runtime.tableOptions.formatOptions schema = .ok table ∧
      σ.registerTable (.bare name) table = .ok σ'

/-- Some order of the tasks lets a path fail and the call succeed. -/
def FallsBack (files : Files F S P) (σ : Session F P) (name : String) (paths : List String)
    (storageOptions : List (String × String)) (options : ReadOptions S) : Prop :=
  ∃ url rest schema, paths.mapM files.outside.parse = .ok (url :: rest) ∧
    SchemaDespite files σ.runtime paths storageOptions options url schema ∧
    Accepted files σ name options (url :: rest) schema

theorem mapM_checkExtension : (∃ xs, urls.mapM (checkExtension options.fileExtension) = .ok xs) ↔
    ∀ url ∈ urls, checkExtension options.fileExtension url = .ok () := by
  constructor
  · rintro ⟨xs, h⟩ url hurl
    obtain ⟨i, hi, rfl⟩ := List.getElem_of_mem hurl
    have hall := List.forall₂_iff_get.mp (forall₂_of_mapM h)
    exact hall.2 i hi (hall.1 ▸ hi)
  · intro h
    obtain ⟨xs, hxs, -⟩ := mapM_ok (P := fun _ _ => True) fun url hurl => ⟨(), h url hurl, trivial⟩
    exact ⟨xs, hxs⟩

theorem registerTypes_ok_iff
    (hf : runtime.tableOptions.formatOptions = σ.runtime.tableOptions.formatOptions) :
    (∃ σ', registerTypes files { σ with runtime } name paths options = .ok σ') ↔
      ∃ url rest schema, paths.mapM files.outside.parse = .ok (url :: rest) ∧
        getResolvedSchema files runtime options url = .ok schema ∧
        Accepted files σ name options (url :: rest) schema := by
  constructor
  · rintro ⟨σ', h⟩
    obtain ⟨table, ht, hr⟩ := bind_eq_ok_iff.mp h
    obtain ⟨urls, hurls, ht⟩ := bind_eq_ok_iff.mp ht
    cases urls with
    | nil => cases ht
    | cons url rest =>
      obtain ⟨xs, hxs, ht⟩ := bind_eq_ok_iff.mp ht
      obtain ⟨schema, hschema, ht⟩ := bind_eq_ok_iff.mp ht
      refine ⟨url, rest, schema, hurls, hschema, mapM_checkExtension.mp ⟨xs, hxs⟩, table, ?_⟩
      rw [Session.registerTable_runtime] at hr
      obtain ⟨σ'', hreg, -⟩ := map_eq_ok_iff.mp hr
      exact ⟨σ'', hf ▸ ht, hreg⟩
  · rintro ⟨url, rest, schema, hurls, hschema, hext, table, σ', ht, hr⟩
    obtain ⟨xs, hxs⟩ := mapM_checkExtension.mpr hext
    refine ⟨{ σ' with runtime }, bind_eq_ok_iff.mpr ⟨table, ?_, ?_⟩⟩
    · refine bind_eq_ok_iff.mpr ⟨url :: rest, hurls, ?_⟩
      refine bind_eq_ok_iff.mpr ⟨xs, hxs, bind_eq_ok_iff.mpr ⟨schema, hschema, ?_⟩⟩
      rw [← ht]
      exact congrArg (fun f => files.listingTable (url :: rest) options f schema) hf
    · rw [Session.registerTable_runtime, hr]
      rfl

/-- A task that fails would have failed before all others. -/
theorem Progress.not_succeedsFirst {world : Outside F} {format : ConfigFileType} {ι : Type}
    {location : ι → String} {p : Runtime F × (ι → Registration F)} {i : ι}
    (h : Progress world format storageOptions location runtime p) (hi : (p.2 i).isFailed = true) :
    ¬SucceedsFirst world format storageOptions runtime (location i) := by
  intro hfirst
  obtain ⟨url, -, hp, -⟩ := id hfirst
  have hstand := h.tasks i
  cases htask : p.2 i with
  | failed e =>
    rw [htask] at hstand
    obtain ⟨copy, hc, ho⟩ := hstand url hp
    obtain ⟨store, ho'⟩ := hfirst.outcome hp hc fun n hn =>
      ⟨i, by rw [installs_of_parse hp, hn], by simp [htask]⟩
    cases ho.symm.trans ho'
  | _ => simp [htask, Registration.isFailed] at hi

section Runs

variable (hr : (registrations files.outside options.format storageOptions paths.get runtime).Reachable q)
include hr

theorem schemaDespite_of_run (hfin : Finished q) (hfail : (failing q).Nonempty)
    (hs : getResolvedSchema files q.1 options url = .ok schema) :
    SchemaDespite files runtime paths storageOptions options url schema := by
  have hprog := Progress.of_reachable hr
  obtain ⟨i, hi⟩ := hfail
  have hfails : ¬SucceedsFirst files.outside options.format storageOptions runtime (paths.get i) :=
    hprog.not_succeedsFirst hi
  unfold getResolvedSchema at hs
  unfold SchemaDespite
  cases hexp : options.schema with
  | some explicit =>
    simp only [hexp, Except.ok.injEq] at hs
    exact ⟨hs, i, hfails⟩
  | none =>
    simp only [hexp, hprog.options.formatOptions] at hs ⊢
    by_cases hdone : ∃ j url' store, q.2 j = .done url' store ∧ url'.key = url.key
    · obtain ⟨j, url', store, hj, hk⟩ := hdone
      have hstand := hprog.tasks j
      rw [hj] at hstand
      obtain ⟨hp, hb, hstore⟩ := hstand
      rw [← hk, hstore] at hs
      have hij : i ≠ j := by
        rintro rfl
        exact notMem_failing hj hi
      exact .inl ⟨i, j, url', store, hij, hfails, hp, hk, hb.mono fun _ hn => hn.asked, hs⟩
    · refine .inr ⟨fun k url' hp hk => ?_, ?_⟩
      · rcases Registration.over_cases (hfin k) with ⟨u, store, hd⟩ | hf
        · have hstand := hprog.tasks k
          rw [hd] at hstand
          obtain rfl : url' = u := Except.ok.inj (hp.symm.trans hstand.1)
          exact absurd ⟨k, url', store, hd, hk⟩ hdone
        · exact hprog.not_succeedsFirst hf
      · rw [hprog.untouched url.key fun k u store hk heq => hdone ⟨k, u, store, hk, heq⟩] at hs
        cases hstore : runtime.stores url.key with
        | none => simp [hstore] at hs
        | some store => exact ⟨store, rfl, by simpa [hstore] using hs⟩

end Runs

theorem isFailed_over {task : Registration F} (h : task.isFailed = true) : task.over = true := by
  cases task <;> first | rfl | cases h

/-- A path that would fail first fails in a run to the end. -/
theorem exists_finished_failing
    (hi : ¬SucceedsFirst files.outside options.format storageOptions runtime (paths.get i)) : ∃ p,
      (registrations files.outside options.format storageOptions paths.get runtime).Reachable p ∧
      (p.2 i).isFailed = true ∧ ∀ j, i ≠ j → p.2 j = .spawned := by
  have hstart : (registrations files.outside options.format storageOptions paths.get runtime).Reachable
      (runtime, fun _ => .spawned) := reachable_start
  obtain ⟨p, hp, hfail, hrest⟩ := exists_failed hstart (fun j => j = i)
    (installs files.outside (paths.get i)) (fun j hj => by rw [hj]) (fun j hj => by rwa [hj])
  exact ⟨p, hp, hfail i rfl, fun j hij => hrest j fun hji => hij hji.symm⟩

open Classical in
/-- Where every path that goes to one place would fail first, none of them has to register a store. -/
theorem exists_untouched {k : StoreKey}
    (hfail : ∀ i url, files.outside.parse (paths.get i) = .ok url → url.key = k →
      ¬SucceedsFirst files.outside options.format storageOptions runtime (paths.get i))
    (hi : files.outside.parse (paths.get i) = .ok url) (hk : url.key = k) : ∃ q,
      (registrations files.outside options.format storageOptions paths.get runtime).Reachable q ∧
      Finished q ∧ i ∈ failing q ∧ q.1.stores k = runtime.stores k := by
  let S (j : Fin paths.length) : Prop := ∃ url, files.outside.parse (paths.get j) = .ok url ∧ url.key = k
  have hstart : (registrations files.outside options.format storageOptions paths.get runtime).Reachable
      (runtime, fun _ => .spawned) := reachable_start
  obtain ⟨p, hp, hfailed, hrest⟩ := exists_failed hstart S (schemeNamespace k.scheme)
    (by
      rintro j ⟨u, hu, rfl⟩
      rw [installs_of_parse hu]
      rfl)
    (by
      rintro j ⟨u, hu, hku⟩
      exact hfail j u hu hku)
  obtain ⟨q, hq, hover, -, hkeep⟩ := exists_over (fun _ => True) hp
  have hS : ∀ j, S j → (q.2 j).isFailed = true := by
    intro j hj
    rw [hkeep j (isFailed_over (hfailed j hj))]
    exact hfailed j hj
  refine ⟨q, hq, fun j => hover j trivial, hS i ⟨url, hi, hk⟩, ?_⟩
  apply (Progress.of_reachable hq).untouched k
  intro j u store hj hku
  have hstand := (Progress.of_reachable hq).tasks j
  rw [hj] at hstand
  exact notMem_failing hj (hS j ⟨u, hstand.1, hku⟩)

/-- Every schema the call can get despite a failure, it gets in some run. -/
theorem run_of_schemaDespite
    (h : SchemaDespite files runtime paths storageOptions options url schema)
    (hi : files.outside.parse (paths.get i) = .ok url) : ∃ q,
      (registrations files.outside options.format storageOptions paths.get runtime).Reachable q ∧
      Finished q ∧ (failing q).Nonempty ∧ getResolvedSchema files q.1 options url = .ok schema := by
  unfold SchemaDespite at h
  cases hexp : options.schema with
  | some explicit =>
    simp only [hexp] at h
    obtain ⟨rfl, j, hj⟩ := h
    obtain ⟨p, hp, hfail, -⟩ := exists_finished_failing hj
    obtain ⟨q, hq, hover, -, hkeep⟩ := exists_over (fun _ => True) hp
    refine ⟨q, hq, fun j => hover j trivial, ⟨j, ?_⟩, by simp only [getResolvedSchema, hexp]⟩
    change (q.2 j).isFailed = true
    rw [hkeep j (isFailed_over hfail), hfail]
  | none =>
    simp only [hexp] at h
    rcases h with ⟨j, k, url', store, hjk, hj, hp', hkey, hb, hread⟩ | ⟨hfail, store, hstore, hread⟩
    · obtain ⟨p, hp, hfail, hrest⟩ := exists_finished_failing hj
      obtain ⟨q, hq, hfin, hdone, hkeep⟩ := exists_done hp hp' hb (hrest k hjk)
      have hprog := Progress.of_reachable hq
      refine ⟨q, hq, hfin, ⟨j, ?_⟩, ?_⟩
      · change (q.2 j).isFailed = true
        rw [hkeep j (isFailed_over hfail), hfail]
      · simp only [getResolvedSchema, hexp]
        rw [← hkey, hprog.store_of_done hdone, hprog.options.formatOptions]
        exact hread
    · obtain ⟨q, hq, hfin, hi', hst⟩ := exists_untouched hfail hi rfl
      refine ⟨q, hq, hfin, ⟨i, hi'⟩, ?_⟩
      simp only [getResolvedSchema, hexp]
      rw [hst, hstore, (Progress.of_reachable hq).options.formatOptions]
      exact hread

theorem catalogs_afterJoin {e : CallError} (h : (afterJoin files σ name paths options).2 = .error e) :
    (afterJoin files σ name paths options).1 = σ := by
  unfold afterJoin at h ⊢
  split
  · rename_i heq
    simp [heq] at h
  · rfl

theorem afterJoin_ok_iff : (afterJoin files σ name paths options).2 = .ok () ↔
    ∃ σ', registerTypes files σ name paths options = .ok σ' := by
  unfold afterJoin
  split <;> simp_all

/-- The call reports the failures of its tasks in every order exactly where none lets it succeed. -/
theorem ends_all_or_nothing_iff :
    (∀ failed ending, Ends files σ name paths storageOptions (.ok options) failed ending →
      AllOrNothing σ failed ending) ↔
    ¬FallsBack files σ name paths storageOptions options := by
  constructor
  · rintro h ⟨url, rest, schema, hurls, hs, hacc⟩
    have hfirst : ∃ i : Fin paths.length, files.outside.parse (paths.get i) = .ok url := by
      cases paths with
      | nil => cases hurls
      | cons path paths =>
        cases forall₂_of_mapM hurls with
        | cons hp _ => exact ⟨0, hp⟩
    obtain ⟨i, hi⟩ := hfirst
    obtain ⟨q, hq, hfin, hfail, hschema⟩ := run_of_schemaDespite hs hi
    obtain ⟨e, he⟩ := (h _ _ (.joined hq hfin)).1 hfail
    have hok := afterJoin_ok_iff.mpr ((registerTypes_ok_iff
      (Progress.of_reachable hq).options.formatOptions).mpr ⟨url, rest, schema, hurls, hschema, hacc⟩)
    cases he.symm.trans hok
  · rintro h failed ending hends
    cases hends with
    | @joined _ q hq hfin =>
      refine ⟨fun hfail => ?_, fun e he => ?_⟩
      · cases hres : (afterJoin files { σ with runtime := q.1 } name paths options).2 with
        | error e => exact ⟨e, rfl⟩
        | ok u =>
          obtain ⟨url, rest, schema, hurls, hschema, hacc⟩ := (registerTypes_ok_iff
            (Progress.of_reachable hq).options.formatOptions).mp (afterJoin_ok_iff.mp hres)
          exact absurd ⟨url, rest, schema, hurls, schemaDespite_of_run hq hfin hfail hschema, hacc⟩ h
      · rw [catalogs_afterJoin he]

theorem ends_iff (args : Except CallError (ReadOptions S)) :
    (∀ failed ending, Ends files σ name paths storageOptions args failed ending →
      AllOrNothing σ failed ending) ↔
    ∀ options, args = .ok options → ¬FallsBack files σ name paths storageOptions options := by
  cases args with
  | error e =>
    constructor
    · intro _ options h
      cases h
    · intro _ failed ending hends
      cases hends
      exact ⟨fun h => absurd h Set.not_nonempty_empty, fun _ _ => rfl⟩
  | ok options =>
    rw [ends_all_or_nothing_iff]
    constructor
    · intro h options' heq
      cases heq
      exact h
    · intro h
      exact h options rfl

/-- `register_csv` and `register_parquet` are all or nothing exactly where no order of their tasks lets
a path fail and still gets the call a schema. -/
theorem file_registration_all_or_nothing_iff (files : Files F S P) (σ : Session F P) (name : String)
    (paths : List String) (storageOptions : List (String × String)) :
    (∀ args : CsvArgs S, (∀ failed ending,
        RegisterCsv files σ name paths args storageOptions failed ending →
          AllOrNothing σ failed ending) ↔
      ∀ options, csvOptions files args = .ok options →
        ¬FallsBack files σ name paths storageOptions options) ∧
    (∀ args : ParquetArgs S, (∀ failed ending,
        RegisterParquet files σ name paths args storageOptions failed ending →
          AllOrNothing σ failed ending) ↔
      ∀ options, parquetOptions args = .ok options →
        ¬FallsBack files σ name paths storageOptions options) :=
  ⟨fun args => ends_iff (csvOptions files args), fun args => ends_iff (parquetOptions args)⟩

section UnknownOption

/-- Files on the two clouds, whose schema nobody asks for. -/
def cloudFiles : Files Unit Unit Unit where
  outside := twoClouds
  compression _ := some .uncompressed
  inferSchema _ _ _ _ := .error (.outside "not reached")
  listingTable _ _ _ _ := .ok ()

def emptyCatalog : Session Unit Unit where
  runtime := newSession
  defaultCatalog := "datafusion"
  defaultSchema := "public"
  informationSchema := none
  catalogs catalog := if catalog = "datafusion" then
    some fun schema => if schema = "public" then some ⟨.memory, fun _ => none⟩ else none
  else none

/-- With an explicit schema, a path whose storage options are refused is registered all the same. -/
theorem refused_options_unreported : ¬∀ failed ending,
    RegisterParquet cloudFiles emptyCatalog "t" ["s3://lake/a.parquet"] { schema := some () }
      [("aws.nope", "x")] failed ending → AllOrNothing emptyCatalog failed ending := by
  intro h
  refine (ends_iff (parquetOptions { schema := some () })).mp h _ rfl
    ⟨⟨⟨"s3", some "lake", none⟩, "s3://lake/a.parquet", false⟩, [], (), rfl, ⟨rfl, 0, ?_⟩, ?_, (), _, rfl,
      rfl⟩
  · rintro ⟨url, store, hp, ho⟩
    cases hp
    cases ho
  · intro url hurl
    obtain rfl := List.mem_singleton.mp hurl
    rfl

end UnknownOption

end XorqDatafusion.Context
