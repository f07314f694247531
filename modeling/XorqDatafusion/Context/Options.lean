import XorqDatafusion.Fallible
import Mathlib.Logic.Function.Basic

/-! Table options: the option extensions of a session, and how storage options are applied to them. -/
namespace XorqDatafusion.Context

open Fallible

/-- The variants of `datafusion::error::DataFusionError` that registering files meets; `outside` is an
error made by code that is not in this repository. -/
inductive ContextError
  | configuration (message : String)
  | execution (message : String)
  | objectStore (store source : String)
  | plan (message : String)
  | outside (message : String)
deriving DecidableEq

/-- `str::split_once('.')`. -/
def splitOnce (key : String) : Option (String × String) :=
  match key.toList.dropWhile (· ≠ '.') with
  | [] => none
  | _ :: rest => some (String.ofList (key.toList.takeWhile (· ≠ '.')), String.ofList rest)

inductive ConfigFileType
  | csv
  | parquet
deriving DecidableEq

/-- `ConfigField::set` of the leaves; `format` sets an option of the file format in use. -/
structure ConfigFields (F : Type) where
  string : String → String → Except ContextError String
  bool : String → String → Except ContextError Bool
  format : ConfigFileType → String → String → F → Except ContextError F

structure AwsOptions where
  accessKeyId : Option String := none
  secretAccessKey : Option String := none
  sessionToken : Option String := none
  region : Option String := none
  endpoint : Option String := none
  allowHttp : Option Bool := none
deriving DecidableEq

structure GcpOptions where
  serviceAccountPath : Option String := none
  serviceAccountKey : Option String := none
  applicationCredentialsPath : Option String := none
deriving DecidableEq

variable {F : Type}

def AwsOptions.set (fields : ConfigFields F) (key value : String) (options : AwsOptions) :
    Except ContextError AwsOptions :=
  let (_, awsKey) := (splitOnce key).getD (key, "")
  let (key, rem) := (splitOnce awsKey).getD (awsKey, "")
  match key with
  | "access_key_id" => do return { options with accessKeyId := some (← fields.string rem value) }
  | "secret_access_key" => do
    return { options with secretAccessKey := some (← fields.string rem value) }
  | "session_token" => do return { options with sessionToken := some (← fields.string rem value) }
  | "region" => do return { options with region := some (← fields.string rem value) }
  | "oss" | "cos" | "endpoint" => do
    return { options with endpoint := some (← fields.string rem value) }
  | "allow_http" => do return { options with allowHttp := some (← fields.bool rem value) }
  | _ => .error (.configuration s!"Config value \"{rem}\" not found on AwsOptions")

def GcpOptions.set (fields : ConfigFields F) (key value : String) (options : GcpOptions) :
    Except ContextError GcpOptions :=
  let (_, rem) := (splitOnce key).getD (key, "")
  match rem with
  | "service_account_path" => do
    return { options with serviceAccountPath := some (← fields.string rem value) }
  | "service_account_key" => do
    return { options with serviceAccountKey := some (← fields.string rem value) }
  | "application_credentials_path" => do
    return { options with applicationCredentialsPath := some (← fields.string rem value) }
  | _ => .error (.configuration s!"Config value \"{rem}\" not found on GcpOptions")

/-- The extensions this crate installs. -/
inductive Namespace
  | aws
  | gcp
deriving DecidableEq

/-- `ConfigExtension::PREFIX`. -/
def Namespace.key : Namespace → String
  | .aws => "aws"
  | .gcp => "gcp"

def Namespace.ofKey (ns : String) : Option Namespace :=
  if ns = Namespace.aws.key then some .aws
  else if ns = Namespace.gcp.key then some .gcp
  else none

theorem Namespace.ofKey_eq_some_iff {ns : String} {n : Namespace} :
    Namespace.ofKey ns = some n ↔ ns = n.key := by
  unfold Namespace.ofKey
  constructor
  · intro h
    split at h
    · cases h
      assumption
    · split at h
      · cases h
        assumption
      · cases h
  · rintro rfl
    cases n <;> rfl

theorem Namespace.key_ne (n : Namespace) : n.key ≠ "format" ∧ n.key ≠ "execution" := by
  cases n <;> decide

def Extension : Namespace → Type
  | .aws => AwsOptions
  | .gcp => GcpOptions

def Extension.default : (n : Namespace) → Extension n
  | .aws => ({} : AwsOptions)
  | .gcp => ({} : GcpOptions)

/-- `ExtensionOptions::set`. -/
def Extension.set (fields : ConfigFields F) (key value : String) :
    {n : Namespace} → Extension n → Except ContextError (Extension n)
  | .aws => AwsOptions.set fields key value
  | .gcp => GcpOptions.set fields key value

structure TableOptions (F : Type) where
  currentFormat : Option ConfigFileType
  formatOptions : F
  extensions : (n : Namespace) → Option (Extension n)

namespace TableOptions

def setConfigFormat (options : TableOptions F) (format : ConfigFileType) : TableOptions F :=
  { options with currentFormat := some format }

/-- `Extensions::insert`: an extension replaces the previous one of its type. -/
def install (options : TableOptions F) (n : Namespace) : TableOptions F :=
  { options with extensions := Function.update options.extensions n (some (.default n)) }

/-- `TableOptions::set`. -/
def set (fields : ConfigFields F) (options : TableOptions F) (key value : String) :
    Except ContextError (TableOptions F) :=
  match splitOnce key with
  | none => .error (.configuration s!"could not find config namespace for key \"{key}\"")
  | some (ns, rem) =>
    if ns = "format" then
      match options.currentFormat with
      | none => .error (.configuration "Specify a format for TableOptions")
      | some format => do
        return { options with
          formatOptions := ← fields.format format rem value options.formatOptions }
    else if ns = "execution" then .ok options
    else match Namespace.ofKey ns with
      | none => .error (.configuration s!"Could not find config namespace \"{ns}\"")
      | some n => match options.extensions n with
        | none => .error (.configuration s!"Could not find config namespace \"{ns}\"")
        | some extension => do
          let extension ← extension.set fields key value
          return { options with extensions := Function.update options.extensions n (some extension) }

/-- `alter_with_string_hash_map`, the map as the list of its entries in the order it iterates. -/
def alter (fields : ConfigFields F) (storageOptions : List (String × String))
    (options : TableOptions F) : Except ContextError (TableOptions F) :=
  storageOptions.foldlM (fun options entry => options.set fields entry.1 entry.2) options

end TableOptions

section Alter

variable {fields : ConfigFields F} {key value : String} {n m : Namespace} {used : Namespace → Prop}
  {t t' u u' : TableOptions F} {storageOptions : List (String × String)}

/-- The extension a key is for. -/
def keyNamespace (key : String) : Option Namespace :=
  (splitOnce key).bind fun parts => Namespace.ofKey parts.1

theorem splitOnce_of_keyNamespace (h : keyNamespace key = some n) :
    ∃ rem, splitOnce key = some (n.key, rem) := by
  obtain ⟨⟨ns, rem⟩, hs, hn⟩ := Option.bind_eq_some_iff.mp h
  obtain rfl := Namespace.ofKey_eq_some_iff.mp hn
  exact ⟨rem, hs⟩

/-- Some storage option is for this extension. -/
def Uses (storageOptions : List (String × String)) (n : Namespace) : Prop :=
  ∃ entry ∈ storageOptions, keyNamespace entry.1 = some n

instance : Decidable (Uses storageOptions n) :=
  inferInstanceAs (Decidable (∃ entry ∈ storageOptions, _))

theorem Uses.cons {entry : String × String} (h : Uses storageOptions n) :
    Uses (entry :: storageOptions) n := by
  obtain ⟨e, he, hn⟩ := h
  exact ⟨e, List.mem_cons_of_mem _ he, hn⟩

theorem Uses.head {entry : String × String} (h : keyNamespace entry.1 = some n) :
    Uses (entry :: storageOptions) n := ⟨entry, List.mem_cons_self, h⟩

theorem AwsOptions.set_ok {options options' o : AwsOptions} (h : options.set fields key value = .ok o) :
    ∃ o', options'.set fields key value = .ok o' := by
  unfold AwsOptions.set at h ⊢
  generalize (splitOnce key).getD (key, "") = parts at h ⊢
  dsimp only at h ⊢
  split at h
  all_goals
    first
    | obtain ⟨x, hx, -⟩ := bind_eq_ok_iff.mp h
      rw [hx]
      exact ⟨_, rfl⟩
    | cases h

theorem GcpOptions.set_ok {options options' o : GcpOptions} (h : options.set fields key value = .ok o) :
    ∃ o', options'.set fields key value = .ok o' := by
  unfold GcpOptions.set at h ⊢
  generalize (splitOnce key).getD (key, "") = parts at h ⊢
  dsimp only at h ⊢
  split at h
  all_goals
    first
    | obtain ⟨x, hx, -⟩ := bind_eq_ok_iff.mp h
      rw [hx]
      exact ⟨_, rfl⟩
    | cases h

/-- Whether an extension takes an option does not depend on what it holds. -/
theorem Extension.set_ok {e o : Extension n} (h : e.set fields key value = .ok o) (e' : Extension n) :
    ∃ o', e'.set fields key value = .ok o' := by
  cases n with
  | aws =>
    have hset : AwsOptions.set fields key value e = .ok o := h
    exact show ∃ o', AwsOptions.set fields key value e' = .ok o' from AwsOptions.set_ok hset
  | gcp =>
    have hset : GcpOptions.set fields key value e = .ok o := h
    exact show ∃ o', GcpOptions.set fields key value e' = .ok o' from GcpOptions.set_ok hset

namespace TableOptions

/-- An option for an extension goes to it, if it is installed. -/
theorem set_of_extension {e : Extension n} (h : keyNamespace key = some n)
    (he : t.extensions n = some e) : t.set fields key value =
      (e.set fields key value).map fun e =>
        { t with extensions := Function.update t.extensions n (some e) } := by
  obtain ⟨rem, hs⟩ := splitOnce_of_keyNamespace h
  simp only [set, hs, n.key_ne.1, n.key_ne.2, if_false, Namespace.ofKey_eq_some_iff.mpr rfl, he]
  cases e.set fields key value <;> rfl

/-- So an option that is taken was for an extension that is installed, and is now changed. -/
theorem set_eq_ok_of_keyNamespace (h : keyNamespace key = some n)
    (hs : t.set fields key value = .ok u) : ∃ e o, t.extensions n = some e ∧
      e.set fields key value = .ok o ∧
      u = { t with extensions := Function.update t.extensions n (some o) } := by
  cases he : t.extensions n with
  | none =>
    obtain ⟨rem, hk⟩ := splitOnce_of_keyNamespace h
    simp [set, hk, n.key_ne, Namespace.ofKey_eq_some_iff.mpr rfl, he] at hs
  | some e =>
    rw [set_of_extension h he] at hs
    obtain ⟨o, ho, hu⟩ := map_eq_ok_iff.mp hs
    exact ⟨e, o, rfl, ho, hu.symm⟩

theorem isSome_of_set (h : keyNamespace key = some n) (hs : t.set fields key value = .ok u) :
    (t.extensions n).isSome := by
  obtain ⟨e, -, he, -⟩ := set_eq_ok_of_keyNamespace h hs
  simp [he]

/-- Any other option leaves the extensions alone, and does not ask for one. -/
theorem set_of_keyNamespace_none (fields : ConfigFields F) (value : String)
    (h : keyNamespace key = none) :
    ∃ g : Option ConfigFileType → F → Except ContextError F, ∀ t : TableOptions F,
      t.set fields key value =
        (g t.currentFormat t.formatOptions).map fun f => { t with formatOptions := f } := by
  cases hs : splitOnce key with
  | none =>
    refine ⟨fun _ _ => .error (.configuration s!"could not find config namespace for key \"{key}\""), ?_⟩
    intro t
    simp [set, hs, Except.map]
  | some parts =>
    obtain ⟨ns, rem⟩ := parts
    have hn : Namespace.ofKey ns = none := by simpa [keyNamespace, hs] using h
    by_cases hf : ns = "format"
    · refine ⟨fun format f => match format with
        | none => .error (.configuration "Specify a format for TableOptions")
        | some format => fields.format format rem value f, ?_⟩
      intro t
      cases hc : t.currentFormat with
      | none => simp [set, hs, hf, hc, Except.map]
      | some format =>
        simp only [set, hs, hf, if_true, hc]
        cases fields.format format rem value t.formatOptions <;> rfl
    · by_cases he : ns = "execution"
      · refine ⟨fun _ f => .ok f, ?_⟩
        intro t
        simp [set, hs, he, Except.map]
      · refine ⟨fun _ _ => .error (.configuration s!"Could not find config namespace \"{ns}\""), ?_⟩
        intro t
        simp [set, hs, hf, he, hn, Except.map]

theorem extensions_of_set (hs : t.set fields key value = .ok u) (m : Namespace) :
    (u.extensions m).isSome = (t.extensions m).isSome := by
  cases hk : keyNamespace key with
  | none =>
    obtain ⟨g, hg⟩ := set_of_keyNamespace_none fields value hk
    rw [hg] at hs
    obtain ⟨f, -, rfl⟩ := map_eq_ok_iff.mp hs
    rfl
  | some n =>
    obtain ⟨e, o, he, -, rfl⟩ := set_eq_ok_of_keyNamespace hk hs
    by_cases hm : m = n
    · subst hm
      simp [he]
    · simp [hm]

/-- `t'` has what `t` has of the extensions in use, and the same one of its own. -/
structure Sees (n : Namespace) (used : Namespace → Prop) (t t' : TableOptions F) : Prop where
  currentFormat : t'.currentFormat = t.currentFormat
  formatOptions : t'.formatOptions = t.formatOptions
  own : t'.extensions n = t.extensions n
  others : ∀ m, used m → (t.extensions m).isSome → (t'.extensions m).isSome

theorem Sees.others_of_set (h : Sees n used t t') (hs : t.set fields key value = .ok u)
    (hs' : t'.set fields key value = .ok u') {m : Namespace} (hm : used m)
    (hsome : (u.extensions m).isSome) : (u'.extensions m).isSome := by
  rw [extensions_of_set hs] at hsome
  rw [extensions_of_set hs']
  exact h.others m hm hsome

/-- An option for no extension meets the same format in both. -/
theorem Sees.set_none (h : Sees n used t t') (hk : keyNamespace key = none)
    (hs : t.set fields key value = .ok u) :
    ∃ u', t'.set fields key value = .ok u' ∧ Sees n used u u' := by
  obtain ⟨g, hg⟩ := set_of_keyNamespace_none fields value hk
  have ht' : t'.set fields key value =
      (g t.currentFormat t.formatOptions).map fun f => { t' with formatOptions := f } := by
    rw [hg, h.currentFormat, h.formatOptions]
  have ht := hs
  rw [hg] at ht
  obtain ⟨f, hf, rfl⟩ := map_eq_ok_iff.mp ht
  rw [hf] at ht'
  exact ⟨_, ht', h.currentFormat, rfl, h.own, fun m hm => h.others_of_set hs ht' hm⟩

/-- Whether an extension takes an option does not depend on what it holds, and the own one holds the
same in both. -/
theorem Sees.set_some (h : Sees n used t t') (hk : keyNamespace key = some m) (hm : used m)
    (hs : t.set fields key value = .ok u) :
    ∃ u', t'.set fields key value = .ok u' ∧ Sees n used u u' := by
  obtain ⟨e, o, he, ho, hu⟩ := set_eq_ok_of_keyNamespace hk hs
  obtain ⟨e', he'⟩ := Option.isSome_iff_exists.mp (h.others m hm (by simp [he]))
  obtain ⟨o', ho'⟩ := Extension.set_ok ho e'
  have ht' : t'.set fields key value = _ := set_of_extension hk he'
  rw [ho'] at ht'
  refine ⟨_, ht', ?_, ?_, ?_, fun k hk' => h.others_of_set hs ht' hk'⟩
  · rw [hu]
    exact h.currentFormat
  · rw [hu]
    exact h.formatOptions
  · rw [hu]
    by_cases hmn : n = m
    · subst hmn
      have hown := h.own
      rw [he, he'] at hown
      obtain rfl := Option.some.inj hown
      obtain rfl := Except.ok.inj (ho.symm.trans ho')
      simp
    · simpa [hmn] using h.own

theorem Sees.set (h : Sees n used t t') (hu : ∀ m, keyNamespace key = some m → used m)
    (hs : t.set fields key value = .ok u) :
    ∃ u', t'.set fields key value = .ok u' ∧ Sees n used u u' := by
  cases hk : keyNamespace key with
  | none => exact h.set_none hk hs
  | some m => exact h.set_some hk (hu m hk) hs

theorem Sees.alter (h : Sees n used t t') (hu : ∀ m, Uses storageOptions m → used m)
    (hs : t.alter fields storageOptions = .ok u) :
    ∃ u', t'.alter fields storageOptions = .ok u' ∧ Sees n used u u' := by
  induction storageOptions generalizing t t' with
  | nil =>
    cases hs
    exact ⟨t', rfl, h⟩
  | cons entry rest ih =>
    simp only [TableOptions.alter, List.foldlM_cons, bind_eq_ok_iff] at hs ⊢
    obtain ⟨v, hv, hs⟩ := hs
    obtain ⟨v', hv', hsees⟩ := h.set (fun m hm => hu m (.head hm)) hv
    obtain ⟨u', hu', hsees'⟩ := ih hsees (fun m hm => hu m hm.cons) hs
    exact ⟨u', ⟨v', hv', hu'⟩, hsees'⟩

/-- Options for an extension are only taken where it is installed. -/
theorem isSome_of_alter (hs : t.alter fields storageOptions = .ok u) (hu : Uses storageOptions m) :
    (t.extensions m).isSome := by
  induction storageOptions generalizing t with
  | nil =>
    obtain ⟨entry, he, -⟩ := hu
    cases he
  | cons entry rest ih =>
    simp only [TableOptions.alter, List.foldlM_cons, bind_eq_ok_iff] at hs
    obtain ⟨v, hv, hs⟩ := hs
    obtain ⟨entry', he, hk⟩ := hu
    rcases List.mem_cons.mp he with rfl | he
    · exact isSome_of_set hk hv
    · rw [← extensions_of_set hv]
      exact ih hs ⟨entry', he, hk⟩

end TableOptions

end Alter

end XorqDatafusion.Context
