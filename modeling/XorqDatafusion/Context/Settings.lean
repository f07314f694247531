import XorqDatafusion.Context.Isolation
import Mathlib.Data.List.TakeWhile

/-! Storage options as a map gives them, in any order: which field each of them sets, and the options
that are printed and given back. -/
namespace XorqDatafusion.Context

open Fallible Transition

variable {F : Type} {fields : ConfigFields F} {n m : Namespace} {key value : String}
  {options options' : List (String × String)} {world : Outside F} {url : TableUrl} {store : Store}

/-- `ExtensionOptions::entries`. -/
def AwsOptions.entries (o : AwsOptions) : List (String × Option String) :=
  [("access_key_id", o.accessKeyId),
    ("secret_access_key", o.secretAccessKey),
    ("session_token", o.sessionToken),
    ("region", o.region),
    ("endpoint", o.endpoint),
    ("allow_http", o.allowHttp.map toString)]

def GcpOptions.entries (o : GcpOptions) : List (String × Option String) :=
  [("service_account_path", o.serviceAccountPath),
    ("service_account_key", o.serviceAccountKey),
    ("application_credentials_path", o.applicationCredentialsPath)]

def Extension.entries : {n : Namespace} → Extension n → List (String × Option String)
  | .aws => AwsOptions.entries
  | .gcp => GcpOptions.entries

/-- The storage options that set what these options hold. -/
def Extension.settings (e : Extension n) : List (String × String) :=
  e.entries.filterMap fun entry => entry.2.map fun value => (n.key ++ "." ++ entry.1, value)

/-- What a field holds, as it is printed. -/
def AwsOptions.held (o : AwsOptions) : String → Option String
  | "access_key_id" => o.accessKeyId
  | "secret_access_key" => o.secretAccessKey
  | "session_token" => o.sessionToken
  | "region" => o.region
  | "endpoint" => o.endpoint
  | "allow_http" => o.allowHttp.map toString
  | _ => none

def GcpOptions.held (o : GcpOptions) : String → Option String
  | "service_account_path" => o.serviceAccountPath
  | "service_account_key" => o.serviceAccountKey
  | "application_credentials_path" => o.applicationCredentialsPath
  | _ => none

def Extension.held : {n : Namespace} → Extension n → String → Option String
  | .aws => AwsOptions.held
  | .gcp => GcpOptions.held

/-- The field a key sets; the endpoint has three names. -/
def Extension.field (n : Namespace) (key : String) : String :=
  let (_, rest) := (splitOnce key).getD (key, "")
  match n with
  | .aws => match ((splitOnce rest).getD (rest, "")).1 with
    | "oss" | "cos" | "endpoint" => "endpoint"
    | field => field
  | .gcp => rest

/-- No two options set the same field of an extension. -/
def Unambiguous (n : Namespace) (options : List (String × String)) : Prop :=
  ∀ a ∈ options, ∀ b ∈ options, a ≠ b → keyNamespace a.1 = some n → keyNamespace b.1 = some n →
    Extension.field n a.1 ≠ Extension.field n b.1

instance : Decidable (Unambiguous n options) :=
  inferInstanceAs (Decidable (∀ a ∈ options, ∀ b ∈ options, _))

section Exchange

theorem toString_bool_injective : Function.Injective (toString : Bool → String) := by decide

/-- Options are known by what their fields hold. -/
theorem Extension.ext_held {e o : Extension n} (h : e.held = o.held) : e = o := by
  cases n with
  | aws =>
    obtain ⟨_, _, _, _, _, http⟩ := e
    obtain ⟨_, _, _, _, _, http'⟩ := o
    have h₁ := congrFun h "access_key_id"
    have h₂ := congrFun h "secret_access_key"
    have h₃ := congrFun h "session_token"
    have h₄ := congrFun h "region"
    have h₅ := congrFun h "endpoint"
    have h₆ : http = http' :=
      Option.map_injective toString_bool_injective (congrFun h "allow_http")
    simp only [Extension.held, AwsOptions.held] at h₁ h₂ h₃ h₄ h₅
    rw [h₁, h₂, h₃, h₄, h₅, h₆]
  | gcp =>
    obtain ⟨_, _, _⟩ := e
    obtain ⟨_, _, _⟩ := o
    have h₁ := congrFun h "service_account_path"
    have h₂ := congrFun h "service_account_key"
    have h₃ := congrFun h "application_credentials_path"
    simp only [Extension.held, GcpOptions.held] at h₁ h₂ h₃
    rw [h₁, h₂, h₃]

/-- A setter of one field, whose value does not depend on the options it changes. -/
theorem held_of_put {ε β : Type} {held : ε → String → Option String} {put : β → ε → ε} {name : String}
    (text : β → String) (r : Except ContextError β)
    (hname : ∀ x e, held (put x e) name = some (text x))
    (hothers : ∀ k ≠ name, ∀ x e, held (put x e) k = held e k) :
    ∃ v, ∀ e o, (r >>= fun x => pure (put x e)) = .ok o →
      held o = Function.update (held e) name (some v) := by
  cases r with
  | error c => exact ⟨"", fun e o h => by cases h⟩
  | ok x =>
    refine ⟨text x, ?_⟩
    intro e o h
    cases h
    funext k
    by_cases hk : k = name
    · rw [hk, Function.update_self, hname]
    · rw [Function.update_of_ne hk, hothers k hk]

theorem AwsOptions.held_of_set (fields : ConfigFields F) (key value : String) :
    ∃ v, ∀ e o : AwsOptions, e.set fields key value = .ok o →
      o.held = Function.update e.held (Extension.field .aws key) (some v) := by
  unfold AwsOptions.set Extension.field
  generalize (splitOnce key).getD (key, "") = parts
  dsimp only
  generalize (splitOnce parts.2).getD (parts.2, "") = parts
  obtain ⟨name, rest⟩ := parts
  dsimp only
  split
  case h_9 => exact ⟨"", fun e o h => by cases h⟩
  case h_8 =>
    refine held_of_put toString _ (fun _ _ => rfl) ?_
    intro k hk x e
    unfold AwsOptions.held
    split <;> first | rfl | exact absurd rfl hk
  all_goals
    refine held_of_put id _ (fun _ _ => rfl) ?_
    intro k hk x e
    unfold AwsOptions.held
    split <;> first | rfl | exact absurd rfl hk

theorem GcpOptions.held_of_set (fields : ConfigFields F) (key value : String) :
    ∃ v, ∀ e o : GcpOptions, e.set fields key value = .ok o →
      o.held = Function.update e.held (Extension.field .gcp key) (some v) := by
  unfold GcpOptions.set Extension.field
  generalize (splitOnce key).getD (key, "") = parts
  obtain ⟨_, name⟩ := parts
  dsimp only
  split
  case h_4 => exact ⟨"", fun e o h => by cases h⟩
  all_goals
    refine held_of_put id _ (fun _ _ => rfl) ?_
    intro k hk x e
    unfold GcpOptions.held
    split <;> first | rfl | exact absurd rfl hk

/-- An option sets its field to the same text, whatever the extension holds, and no other. -/
theorem Extension.held_of_set (fields : ConfigFields F) (n : Namespace) (key value : String) :
    ∃ v, ∀ e o : Extension n, e.set fields key value = .ok o →
      o.held = Function.update e.held (field n key) (some v) := by
  cases n with
  | aws => exact AwsOptions.held_of_set fields key value
  | gcp => exact GcpOptions.held_of_set fields key value

/-- Options for two fields can be set the other way round. -/
theorem Extension.set_exchange {a b : String × String} (hab : field n a.1 ≠ field n b.1)
    {s t u : Extension n} (ht : s.set fields a.1 a.2 = .ok t) (hu : t.set fields b.1 b.2 = .ok u) :
    ∃ t', s.set fields b.1 b.2 = .ok t' ∧ t'.set fields a.1 a.2 = .ok u := by
  obtain ⟨t', ht'⟩ := Extension.set_ok hu s
  obtain ⟨u', hu'⟩ := Extension.set_ok ht t'
  refine ⟨t', ht', ?_⟩
  obtain ⟨v, hv⟩ := held_of_set fields n a.1 a.2
  obtain ⟨w, hw⟩ := held_of_set fields n b.1 b.2
  have hsame : u'.held = u.held := by
    rw [hv _ _ hu', hw _ _ ht', hw _ _ hu, hv _ _ ht, Function.update_comm hab]
  rwa [← Extension.ext_held hsame]

end Exchange

theorem Unambiguous.perm (h : Unambiguous n options) (hp : options.Perm options') :
    Unambiguous n options' :=
  fun a ha b hb => h a (hp.mem_iff.mpr ha) b (hp.mem_iff.mpr hb)

/-- Without two options for one field, the order of the options makes no difference. -/
theorem extension_of_perm (hp : options.Perm options') (hu : Unambiguous n options) {e : Extension n}
    (h : extensionOf fields options n = .ok e) : extensionOf fields options' n = .ok e := by
  refine foldlM_perm (hp.filter _) ?_ h
  intro a ha b hb hab s t u ht hu'
  obtain ⟨ha, hna⟩ := List.mem_filter.mp ha
  obtain ⟨hb, hnb⟩ := List.mem_filter.mp hb
  exact Extension.set_exchange (hu a ha b hb hab (by simpa using hna) (by simpa using hnb)) ht hu'

theorem Own.perm (hp : options.Perm options') (hu : ∀ n, Unambiguous n options)
    (h : Own world options url store) : Own world options' url store := by
  unfold Own at h ⊢
  split at h
  · exact h
  · obtain ⟨e, he, hstore⟩ := h
    exact ⟨e, extension_of_perm hp (hu _) he, hstore⟩

/-- Own options leave one store. -/
theorem Own.unique {store' : Store} (h : Own world options url store)
    (h' : Own world options url store') (t : TableOptions F) : store = store' := by
  cases hn : schemeNamespace url.scheme with
  | none =>
    simp only [Own, hn] at h h'
    have hsame := h (fun _ => none) t
    rw [h' (fun _ => none) t] at hsame
    exact (Except.ok.inj hsame).symm
  | some n =>
    simp only [Own, hn] at h h'
    obtain ⟨e, he, hstore⟩ := h
    obtain ⟨e', he', hstore'⟩ := h'
    obtain rfl : e = e' := Except.ok.inj (he.symm.trans he')
    have hinstalled : { t with extensions := Function.update t.extensions n (some e) }.extensions n =
      some e := by simp
    have hsame := hstore (fun _ => none) _ hinstalled
    rw [hstore' (fun _ => none) _ hinstalled] at hsame
    exact (Except.ok.inj hsame).symm

section Runs

variable {ι κ : Type} [DecidableEq ι] [DecidableEq κ] {format : ι → ConfigFileType}
  {format' : κ → ConfigFileType} {storageOptions : ι → List (String × String)}
  {storageOptions' : κ → List (String × String)} {location : ι → String} {location' : κ → String}
  {runtime runtime' : Runtime F} {p : Runtime F × (ι → Registration F)}
  {q : Runtime F × (κ → Registration F)} {i : ι} {j : κ} {url' : TableUrl} {store' : Store}

/-- A location and its storage options, whatever order the map gives them in, decide the store: two
tasks that get theirs in any two sessions, among any other calls and in any order of steps, have the
same one. -/
theorem registration_order_irrelevant
    (hp : (calls world format storageOptions location runtime).Reachable p)
    (hq : (calls world format' storageOptions' location' runtime').Reachable q)
    (hi : p.2 i = .done url store) (hj : q.2 j = .done url' store')
    (hlocation : location i = location' j) (hm : managed url.scheme = true)
    (hoptions : (storageOptions i).Perm (storageOptions' j))
    (hu : ∀ n, Unambiguous n (storageOptions i)) : url = url' ∧ store = store' := by
  obtain ⟨hparse, hown, -⟩ := (registrations_kept_apart hp).1 i url store hi
  obtain ⟨hparse', hown', -⟩ := (registrations_kept_apart hq).1 j url' store' hj
  rw [hlocation] at hparse
  obtain rfl : url = url' := Except.ok.inj (hparse.symm.trans hparse')
  exact ⟨rfl, ((hown hm).perm hoptions hu).unique (hown' hm) runtime.tableOptions⟩

end Runs

/-- A call among others, and the same call in another session, alone and with the map in another order. -/
theorem registration_order_irrelevant_twoKeys : ∃ p q,
    (calls twoClouds (fun _ => .parquet) keysOf (fun _ => lakeFile.text) newSession).Reachable p ∧
    (calls twoClouds (fun _ : Unit => .csv) (fun _ => awsKeys.reverse) (fun _ => lakeFile.text)
      newSession).Reachable q ∧
    p.2 false = .done lakeFile (lakeStore "key" "secret") ∧
    q.2 () = .done lakeFile (lakeStore "key" "secret") := by
  obtain ⟨p, hp, hmine⟩ : ∃ p, System.replay
      (callsStep twoClouds (fun _ => .parquet) keysOf fun _ => lakeFile.text)
      [true, false, false, true, false, true, true, false] (newSession, fun _ => .spawned) = some p ∧
      p.2 false = .done lakeFile (lakeStore "key" "secret") := ⟨_, rfl, rfl⟩
  obtain ⟨q, url, store, hq, halone⟩ : ∃ q url store, System.replay
      (callsStep twoClouds (fun _ : Unit => .csv) (fun _ => awsKeys.reverse) fun _ => lakeFile.text)
      [(), (), (), ()] (newSession, fun _ => .spawned) = some q ∧ q.2 () = .done url store :=
    ⟨_, _, _, rfl, rfl⟩
  have hu : ∀ n, Unambiguous n (keysOf false) := by
    intro n
    cases n <;> decide
  have hpr := reachable_of_replay hp
  have hqr := reachable_of_replay hq
  obtain ⟨rfl, rfl⟩ := registration_order_irrelevant hpr hqr hmine halone rfl rfl
    (List.reverse_perm awsKeys).symm hu
  exact ⟨p, q, hpr, hqr, hmine, halone⟩

section RoundTrip

theorem splitOnce_append {s : String} (t : String) (h : '.' ∉ s.toList) :
    splitOnce (s ++ "." ++ t) = some (s, t) := by
  have hlist : (s ++ "." ++ t).toList = s.toList ++ '.' :: t.toList := by simp
  have hall : ∀ c ∈ s.toList, decide (c ≠ '.') = true := by
    intro c hc
    refine decide_eq_true ?_
    rintro rfl
    exact h hc
  have hdrop : (s.toList ++ '.' :: t.toList).dropWhile (fun c => decide (c ≠ '.')) =
      '.' :: t.toList := by
    rw [List.dropWhile_append_of_pos hall]
    rfl
  have htake : (s.toList ++ '.' :: t.toList).takeWhile (fun c => decide (c ≠ '.')) = s.toList := by
    rw [List.takeWhile_append_of_pos hall]
    simp
  rw [splitOnce, hlist, hdrop, htake]
  simp

theorem splitOnce_eq_none {s : String} (h : '.' ∉ s.toList) : splitOnce s = none := by
  have hall : ∀ c ∈ s.toList, decide (c ≠ '.') = true := by
    intro c hc
    refine decide_eq_true ?_
    rintro rfl
    exact h hc
  have hdrop : s.toList.dropWhile (fun c => decide (c ≠ '.')) = [] :=
    List.dropWhile_eq_nil_iff.mpr hall
  rw [splitOnce, hdrop]

/-- The fields of an extension. -/
def Extension.names : Namespace → List String
  | .aws => ["access_key_id", "secret_access_key", "session_token", "region", "endpoint", "allow_http"]
  | .gcp => ["service_account_path", "service_account_key", "application_credentials_path"]

theorem Namespace.key_plain (n : Namespace) : '.' ∉ n.key.toList := by cases n <;> decide

theorem Extension.names_plain : ∀ {k}, k ∈ names n → '.' ∉ k.toList := by cases n <;> decide

theorem Extension.entries_eq (e : Extension n) : e.entries = (names n).map fun k => (k, e.held k) := by
  cases n <;> rfl

theorem Extension.held_default (k : String) : (default n).held k = none := by
  cases n with
  | aws => simp only [held, default]; unfold AwsOptions.held; split <;> rfl
  | gcp => simp only [held, default]; unfold GcpOptions.held; split <;> rfl

theorem Extension.mem_names_of_held {e : Extension n} {k v : String} (h : e.held k = some v) :
    k ∈ names n := by
  cases n with
  | aws =>
    simp only [held] at h
    unfold AwsOptions.held at h
    split at h
    all_goals first | decide | cases h
  | gcp =>
    simp only [held] at h
    unfold GcpOptions.held at h
    split at h
    all_goals first | decide | cases h

theorem Extension.mem_settings {e : Extension n} {a : String × String} :
    a ∈ e.settings ↔ ∃ k v, e.held k = some v ∧ a = (n.key ++ "." ++ k, v) := by
  simp only [settings, entries_eq, List.mem_filterMap, List.mem_map]
  constructor
  · rintro ⟨_, ⟨k, -, rfl⟩, hv⟩
    obtain ⟨v, hheld, rfl⟩ := Option.map_eq_some_iff.mp hv
    exact ⟨k, v, hheld, rfl⟩
  · rintro ⟨k, v, hv, rfl⟩
    exact ⟨_, ⟨k, mem_names_of_held hv, rfl⟩, by rw [hv]; rfl⟩

theorem keyNamespace_key (n : Namespace) (k : String) : keyNamespace (n.key ++ "." ++ k) = some n := by
  rw [keyNamespace, splitOnce_append k n.key_plain]
  exact Namespace.ofKey_eq_some_iff.mpr rfl

theorem Extension.field_key {k : String} (hk : k ∈ names n) : field n (n.key ++ "." ++ k) = k := by
  rw [field, splitOnce_append k n.key_plain]
  cases n with
  | aws =>
    simp only [Option.getD_some, splitOnce_eq_none (names_plain hk), Option.getD_none]
    simp only [names, List.mem_cons, List.not_mem_nil, or_false] at hk
    rcases hk with rfl | rfl | rfl | rfl | rfl | rfl <;> rfl
  | gcp => rfl

/-- How DataFusion sets a plain text, and a truth value from what it prints; neither looks at the key. -/
structure Faithful (fields : ConfigFields F) : Prop where
  string : ∀ key value, fields.string key value = .ok value
  bool : ∀ key, ∀ b : Bool, fields.bool key (toString b) = .ok b

theorem AwsOptions.set_held (hf : Faithful fields) {e : AwsOptions} (o : AwsOptions) {k v : String}
    (hv : e.held k = some v) :
    ∃ u, o.set fields (Namespace.aws.key ++ "." ++ k) v = .ok u ∧ u.held k = some v := by
  have hk := Extension.mem_names_of_held (n := .aws) (e := e) hv
  simp only [set, splitOnce_append k (Namespace.key_plain .aws), Option.getD_some,
    splitOnce_eq_none (Extension.names_plain hk), Option.getD_none]
  simp only [Extension.names, List.mem_cons, List.not_mem_nil, or_false] at hk
  rcases hk with rfl | rfl | rfl | rfl | rfl | rfl
  case inr.inr.inr.inr.inr =>
    obtain ⟨b, -, rfl⟩ := Option.map_eq_some_iff.mp hv
    simp only [hf.bool]
    exact ⟨_, rfl, rfl⟩
  all_goals
    simp only [hf.string]
    exact ⟨_, rfl, rfl⟩

theorem GcpOptions.set_held (hf : Faithful fields) {e : GcpOptions} (o : GcpOptions) {k v : String}
    (hv : e.held k = some v) :
    ∃ u, o.set fields (Namespace.gcp.key ++ "." ++ k) v = .ok u ∧ u.held k = some v := by
  have hk := Extension.mem_names_of_held (n := .gcp) (e := e) hv
  simp only [set, splitOnce_append k (Namespace.key_plain .gcp), Option.getD_some]
  simp only [Extension.names, List.mem_cons, List.not_mem_nil, or_false] at hk
  rcases hk with rfl | rfl | rfl
  all_goals
    simp only [hf.string]
    exact ⟨_, rfl, rfl⟩

/-- What a field holds can be set again, in any options. -/
theorem Extension.set_held (hf : Faithful fields) {e : Extension n} (o : Extension n) {k v : String}
    (hv : e.held k = some v) : ∃ u, o.set fields (n.key ++ "." ++ k) v = .ok u ∧
      u.held = Function.update o.held k (some v) := by
  have hset : ∃ u, o.set fields (n.key ++ "." ++ k) v = .ok u ∧ u.held k = some v := by
    cases n with
    | aws => exact AwsOptions.set_held hf o hv
    | gcp => exact GcpOptions.set_held hf o hv
  obtain ⟨u, hu, hk⟩ := hset
  obtain ⟨w, hw⟩ := held_of_set fields n (n.key ++ "." ++ k) v
  have hheld := hw o u hu
  rw [field_key (mem_names_of_held hv)] at hheld
  have hsame : w = v := by simpa [hheld] using hk
  exact ⟨u, hu, hsame ▸ hheld⟩

theorem Extension.foldlM_settings (hf : Faithful fields) (e : Extension n) (ks : List String)
    (o : Extension n) : ∃ u,
      (ks.filterMap fun k => (e.held k).map fun v => (n.key ++ "." ++ k, v)).foldlM
        (fun o entry => o.set fields entry.1 entry.2) o = .ok u ∧
      ∀ k, u.held k = if k ∈ ks ∧ e.held k ≠ none then e.held k else o.held k := by
  induction ks generalizing o with
  | nil => exact ⟨o, rfl, by simp⟩
  | cons k ks ih =>
    cases hk : e.held k with
    | none =>
      obtain ⟨u, hu, hheld⟩ := ih o
      refine ⟨u, by rw [List.filterMap_cons_none (by simp [hk])]; exact hu, fun k' => ?_⟩
      by_cases hkk : k' = k
      · subst hkk
        simp [hheld, hk]
      · simp [hheld, hkk]
    | some v =>
      obtain ⟨o', ho, hset⟩ := set_held hf o hk
      obtain ⟨u, hu, hheld⟩ := ih o'
      refine ⟨u, ?_, fun k' => ?_⟩
      · rw [List.filterMap_cons_some (b := (n.key ++ "." ++ k, v)) (by simp [hk]), List.foldlM_cons, ho]
        exact hu
      · by_cases hkk : k' = k
        · subst hkk
          simp [hheld, hset, hk]
        · simp [hheld, hset, hkk]

theorem Extension.settings_eq (e : Extension n) : e.settings =
    (names n).filterMap fun k => (e.held k).map fun v => (n.key ++ "." ++ k, v) := by
  rw [settings, entries_eq, List.filterMap_map]
  rfl

/-- What the options of an extension print sets them again, from the options as they are installed. -/
theorem Extension.settings_restore (hf : Faithful fields) (e : Extension n) :
    e.settings.foldlM (fun o entry => o.set fields entry.1 entry.2) (default n) = .ok e := by
  obtain ⟨u, hu, hheld⟩ := foldlM_settings hf e (names n) (default n)
  have hsame : u = e := by
    refine ext_held (funext fun k => ?_)
    rw [hheld, held_default]
    cases hk : e.held k with
    | none => simp
    | some v => simp [mem_names_of_held hk]
  rw [settings_eq, hu, hsame]

/-- The entries of both extensions. -/
def allSettings (e : ∀ n, Extension n) : List (String × String) := (e .aws).settings ++ (e .gcp).settings

theorem mem_allSettings {e : ∀ n, Extension n} {a : String × String} (ha : a ∈ allSettings e) :
    ∃ m k v, (e m).held k = some v ∧ a = (m.key ++ "." ++ k, v) := by
  rcases List.mem_append.mp ha with ha | ha
  · exact ⟨_, Extension.mem_settings.mp ha⟩
  · exact ⟨_, Extension.mem_settings.mp ha⟩

theorem allSettings_unambiguous (e : ∀ n, Extension n) (n : Namespace) :
    Unambiguous n (allSettings e) := by
  intro a ha b hb hab hna hnb hfield
  obtain ⟨m, k, v, hv, rfl⟩ := mem_allSettings ha
  obtain ⟨m', k', v', hv', rfl⟩ := mem_allSettings hb
  obtain rfl : m = n := Option.some.inj ((keyNamespace_key m k).symm.trans hna)
  obtain rfl : m' = m := Option.some.inj ((keyNamespace_key m' k').symm.trans hnb)
  rw [Extension.field_key (Extension.mem_names_of_held hv),
    Extension.field_key (Extension.mem_names_of_held hv')] at hfield
  subst hfield
  obtain rfl : v = v' := Option.some.inj (hv.symm.trans hv')
  exact hab rfl

theorem filter_settings (e : Extension m) (n : Namespace) :
    e.settings.filter (fun entry => keyNamespace entry.1 = some n) = if m = n then e.settings else [] := by
  have hkey : ∀ a ∈ e.settings, keyNamespace a.1 = some m := by
    intro a ha
    obtain ⟨k, v, -, rfl⟩ := Extension.mem_settings.mp ha
    exact keyNamespace_key m k
  split
  · rename_i hmn
    rw [List.filter_eq_self]
    intro a ha
    simp [hkey a ha, hmn]
  · rename_i hmn
    rw [List.filter_eq_nil_iff]
    intro a ha
    simp [hkey a ha, hmn]

theorem extensionOf_allSettings (hf : Faithful fields) (e : ∀ n, Extension n) (n : Namespace) :
    extensionOf fields (allSettings e) n = .ok (e n) := by
  rw [extensionOf, allSettings, List.filter_append, filter_settings, filter_settings]
  cases n with
  | aws => simpa using Extension.settings_restore hf (e .aws)
  | gcp => simpa using Extension.settings_restore hf (e .gcp)

/-- Options that are all for extensions are applied to each extension by itself. -/
theorem alter_of_keys {t : TableOptions F} {e o : ∀ n, Extension n}
    (hk : ∀ a ∈ options, keyNamespace a.1 ≠ none) (ht : ∀ n, t.extensions n = some (e n))
    (ho : ∀ n, (options.filter fun entry => keyNamespace entry.1 = some n).foldlM
      (fun extension entry => extension.set fields entry.1 entry.2) (e n) = .ok (o n)) :
    t.alter fields options = .ok { t with extensions := fun n => some (o n) } := by
  induction options generalizing t e with
  | nil =>
    have hsame : t.extensions = fun n => some (o n) := by
      funext n
      have hn : e n = o n := Except.ok.inj (ho n)
      rw [ht n, hn]
    rw [← hsame]
    rfl
  | cons a rest ih =>
    obtain ⟨m, hm⟩ := Option.ne_none_iff_exists'.mp (hk a List.mem_cons_self)
    have hset := ho m
    rw [List.filter_cons_of_pos (by simpa using hm), List.foldlM_cons, bind_eq_ok_iff] at hset
    obtain ⟨e', he', hrest⟩ := hset
    rw [TableOptions.alter, List.foldlM_cons, TableOptions.set_of_extension hm (ht m), he']
    refine ih (e := Function.update e m e') (fun b hb => hk b (.tail _ hb)) (fun n => ?_) fun n => ?_
    · by_cases hn : n = m
      · subst hn
        simp
      · simp [hn, ht]
    · by_cases hn : n = m
      · subst hn
        simpa using hrest
      · have hother := ho n
        rw [List.filter_cons_of_neg (by simp [hm, Ne.symm hn])] at hother
        simpa [hn] using hother

/-- Options that are printed and given back as storage options, in whatever order the map then has
them, are the ones there were: nothing else of the table options changes, and nothing fails. -/
theorem storage_options_restore {t : TableOptions F} (hf : Faithful fields) (e : ∀ n, Extension n)
    (hp : options.Perm ((e .aws).settings ++ (e .gcp).settings))
    (ht : ∀ n, t.extensions n = some (.default n)) :
    t.alter fields options = .ok { t with extensions := fun n => some (e n) } := by
  refine alter_of_keys (fun a ha => ?_) ht fun n => ?_
  · obtain ⟨m, k, v, -, rfl⟩ := mem_allSettings (hp.mem_iff.mp ha)
    rw [keyNamespace_key]
    exact Option.some_ne_none m
  · exact extension_of_perm hp.symm (allSettings_unambiguous e n) (extensionOf_allSettings hf e n)

def givenOptions : ∀ n, Extension n
  | .aws => show AwsOptions from { accessKeyId := some "key", allowHttp := some true }
  | .gcp => show GcpOptions from { serviceAccountPath := some "/keys/lake.json" }

/-- Options of both clouds, from the last entry to the first. -/
theorem storage_options_restore_mixed :
    ((newSession.tableOptions.install .aws).install .gcp).alter twoClouds.fields
      [("gcp.service_account_path", "/keys/lake.json"), ("aws.allow_http", "true"),
        ("aws.access_key_id", "key")] =
    .ok { newSession.tableOptions with extensions := fun n => some (givenOptions n) } := by
  have hprinted : (givenOptions .aws).settings ++ (givenOptions .gcp).settings =
      [("aws.access_key_id", "key"), ("aws.allow_http", "true"),
        ("gcp.service_account_path", "/keys/lake.json")] := rfl
  refine storage_options_restore (t := (newSession.tableOptions.install .aws).install .gcp)
    ⟨fun _ _ => rfl, fun _ b => ?_⟩ givenOptions ?_ fun n => ?_
  · cases b <;> rfl
  · rw [hprinted]
    exact List.reverse_perm [_, _, _]
  · cases n <;> rfl

end RoundTrip

end XorqDatafusion.Context
