import XorqDatafusion.Context.ObjectStore

/-! When the order of the registration tasks decides what gets registered. -/
namespace XorqDatafusion.Context

open Fallible Transition

variable {F : Type} {world : Outside F} {format : ConfigFileType}
  {storageOptions : List (String × String)} {url url' : TableUrl} {store store' : Store}
  {stores stores' : StoreKey → Option Store} {t t' u u' : TableOptions F} {n m : Namespace}

/-- What a task makes of the copy of the table options it took. -/
def outcome (world : Outside F) (format : ConfigFileType) (storageOptions : List (String × String))
    (stores : StoreKey → Option Store) (url : TableUrl) (copy : TableOptions F) :
    Except ContextError Store := do
  let options ← alterCopy world format storageOptions url copy
  getObjectStore world stores url options

/-- The schemes whose stores are built, and never looked up. -/
def managed : String → Bool
  | "s3" | "oss" | "cos" | "gs" | "gcs" | "http" | "https" => true
  | _ => false

/-- The builders look at a URL for its bucket only. -/
theorem getBucketName_congr {bucket : String} (h : getBucketName url = .ok bucket)
    (hk : url'.key = url.key) : getBucketName url' = getBucketName url := by
  rw [h]
  unfold getBucketName TableUrl.host at h ⊢
  rw [hk]
  split at h
  · exact h
  · cases h

theorem getS3ObjectStoreBuilder_ok {options : AwsOptions} {builder : AmazonS3Builder}
    (h : getS3ObjectStoreBuilder world url options = .ok builder) (hk : url'.key = url.key) :
    getS3ObjectStoreBuilder world url' options = .ok builder := by
  obtain ⟨bucket, hb, -⟩ := bind_eq_ok_iff.mp h
  simpa only [getS3ObjectStoreBuilder, getBucketName_congr hb hk] using h

theorem getObjectStoreBuilder_ok {options : AwsOptions} {virtualHosted : Bool}
    {builder : AmazonS3Builder} (h : getObjectStoreBuilder world url options virtualHosted = .ok builder)
    (hk : url'.key = url.key) : getObjectStoreBuilder world url' options virtualHosted = .ok builder := by
  obtain ⟨bucket, hb, -⟩ := bind_eq_ok_iff.mp h
  simpa only [getObjectStoreBuilder, getBucketName_congr hb hk] using h

theorem getGcsObjectStoreBuilder_ok {options : GcpOptions} {builder : GoogleCloudStorageBuilder}
    (h : getGcsObjectStoreBuilder world url options = .ok builder) (hk : url'.key = url.key) :
    getGcsObjectStoreBuilder world url' options = .ok builder := by
  obtain ⟨bucket, hb, -⟩ := bind_eq_ok_iff.mp h
  simpa only [getGcsObjectStoreBuilder, getBucketName_congr hb hk] using h

theorem getObjectStore_unmanaged (h : managed url.scheme = false) :
    getObjectStore world stores url t = match stores url.key with
      | some store => .ok store
      | none => .error (.execution s!"Unsupported object store scheme: {url.scheme}") := by
  unfold getObjectStore
  generalize url.scheme = scheme at h ⊢
  split
  case h_8 => rfl
  all_goals simp [managed] at h

theorem getObjectStore_stores (h : managed url.scheme = false → stores' url.key = stores url.key) :
    getObjectStore world stores' url t = getObjectStore world stores url t := by
  cases hm : managed url.scheme with
  | false => rw [getObjectStore_unmanaged hm, getObjectStore_unmanaged hm, h hm]
  | true =>
    unfold getObjectStore
    generalize url.scheme = scheme at hm
    split
    case h_8 => simp [managed] at hm
    all_goals rfl

/-- What is built depends on the key of the URL, and on the extension its scheme is for. -/
theorem getObjectStore_ok (h : getObjectStore world stores url t = .ok store)
    (hk : url'.key = url.key)
    (he : ∀ n, schemeNamespace url.scheme = some n → t'.extensions n = t.extensions n) :
    getObjectStore world stores url' t' = .ok store := by
  have hs : url'.scheme = url.scheme := congrArg StoreKey.scheme hk
  unfold getObjectStore at h ⊢
  rw [hs, hk]
  generalize url.scheme = scheme at h he ⊢
  split at h
  case h_1 =>
    obtain ⟨o, ho, h⟩ := bind_eq_ok_iff.mp h
    obtain ⟨builder, hb, h⟩ := bind_eq_ok_iff.mp h
    refine bind_eq_ok_iff.mpr ⟨o, ?_, bind_eq_ok_iff.mpr ⟨builder, getS3ObjectStoreBuilder_ok hb hk, h⟩⟩
    rw [← ho, awsOptions, awsOptions, he .aws rfl]
  case h_2 | h_3 =>
    obtain ⟨o, ho, h⟩ := bind_eq_ok_iff.mp h
    obtain ⟨builder, hb, h⟩ := bind_eq_ok_iff.mp h
    refine bind_eq_ok_iff.mpr ⟨o, ?_, bind_eq_ok_iff.mpr ⟨builder, getObjectStoreBuilder_ok hb hk, h⟩⟩
    rw [← ho, awsOptions, awsOptions, he .aws rfl]
  case h_4 | h_5 =>
    obtain ⟨o, ho, h⟩ := bind_eq_ok_iff.mp h
    obtain ⟨builder, hb, h⟩ := bind_eq_ok_iff.mp h
    refine bind_eq_ok_iff.mpr
      ⟨o, ?_, bind_eq_ok_iff.mpr ⟨builder, getGcsObjectStoreBuilder_ok hb hk, h⟩⟩
    rw [← ho, gcpOptions, gcpOptions, he .gcp rfl]
  case h_6 | h_7 => exact h
  case h_8 => exact h

/-- The extension a location asks for. -/
def installs (world : Outside F) (location : String) : Option Namespace :=
  match world.parse location with
  | .ok url => schemeNamespace url.scheme
  | .error _ => none

/-- What the shared options may have become once some tasks installed the extensions they need. -/
structure Shared (runtime : Runtime F) (installed : Namespace → Prop) (t : TableOptions F) : Prop where
  currentFormat : t.currentFormat = runtime.tableOptions.currentFormat
  formatOptions : t.formatOptions = runtime.tableOptions.formatOptions
  extensions : ∀ n, t.extensions n = runtime.tableOptions.extensions n ∨
    installed n ∧ t.extensions n = some (.default n)

/-- What a task that goes to this URL may find there: its own extension is as it was installed. -/
structure Copied (runtime : Runtime F) (installed : Namespace → Prop) (url : TableUrl)
    (t : TableOptions F) : Prop extends Shared runtime installed t where
  own : ∀ n, schemeNamespace url.scheme = some n → t.extensions n = some (.default n)

section Outcome

variable {runtime : Runtime F} {installed : Namespace → Prop}

theorem Shared.install (h : Shared runtime installed t) (hn : installed n) :
    Shared runtime installed (t.install n) where
  currentFormat := h.currentFormat
  formatOptions := h.formatOptions
  extensions m := by
    by_cases hm : m = n
    · subst hm
      exact .inr ⟨hn, by simp [TableOptions.install]⟩
    · simpa [TableOptions.install, hm] using h.extensions m

theorem Shared.start : Shared runtime installed runtime.tableOptions :=
  ⟨rfl, rfl, fun _ => .inl rfl⟩

theorem Shared.sees (h : Shared runtime installed t) (h' : Shared runtime installed t')
    (hown : t'.extensions n = t.extensions n)
    (hothers : ∀ m, Uses storageOptions m → (t.extensions m).isSome → (t'.extensions m).isSome) :
    TableOptions.Sees n (Uses storageOptions) (t.setConfigFormat format)
      (t'.setConfigFormat format) where
  currentFormat := rfl
  formatOptions := h'.formatOptions.trans h.formatOptions.symm
  own := hown
  others := hothers

theorem outcome_eq_ok_iff :
    outcome world format storageOptions stores url t = .ok store ↔
      ∃ options, alterCopy world format storageOptions url t = .ok options ∧
        getObjectStore world stores url options = .ok store := bind_eq_ok_iff

theorem isSome_of_outcome (h : outcome world format storageOptions stores url t = .ok store)
    (hn : schemeNamespace url.scheme = some n) (hm : Uses storageOptions m) :
    (t.extensions m).isSome := by
  obtain ⟨options, ha, -⟩ := outcome_eq_ok_iff.mp h
  rw [alterCopy, hn] at ha
  exact TableOptions.isSome_of_alter (t := t.setConfigFormat format) ha hm

/-- Where the extensions in use are there too, the same store is built. -/
theorem outcome_of_copied (hc : Copied runtime installed url t) (hc' : Copied runtime installed url' t')
    (hk : url'.key = url.key) (h : outcome world format storageOptions stores url t = .ok store)
    (hothers : ∀ n, schemeNamespace url.scheme = some n → ∀ m, Uses storageOptions m →
      (t.extensions m).isSome → (t'.extensions m).isSome) :
    outcome world format storageOptions stores url' t' = .ok store := by
  obtain ⟨options, ha, hs⟩ := outcome_eq_ok_iff.mp h
  have hscheme : url'.scheme = url.scheme := congrArg StoreKey.scheme hk
  apply outcome_eq_ok_iff.mpr
  unfold alterCopy at ha ⊢
  rw [hscheme]
  cases hn : schemeNamespace url.scheme with
  | none => exact ⟨_, rfl, getObjectStore_ok hs hk (by simp [hn])⟩
  | some n =>
    simp only [hn] at ha ⊢
    have hown : t'.extensions n = t.extensions n := by
      rw [hc.own n hn, hc'.own n (hscheme ▸ hn)]
    obtain ⟨options', ha', hsees⟩ :=
      (hc.toShared.sees hc'.toShared hown (hothers n hn)).alter (fun _ hm => hm) ha
    refine ⟨options', ha', getObjectStore_ok hs hk ?_⟩
    intro k hk'
    obtain rfl : n = k := Option.some.inj (hn.symm.trans hk')
    exact hsees.own

/-- Two tasks that get their stores get the same one for the same key. -/
theorem outcome_unique (hc : Copied runtime installed url t) (hc' : Copied runtime installed url' t')
    (hk : url'.key = url.key) (h : outcome world format storageOptions stores url t = .ok store)
    (h' : outcome world format storageOptions stores url' t' = .ok store') : store' = store := by
  have hscheme : url'.scheme = url.scheme := congrArg StoreKey.scheme hk
  have hsame := outcome_of_copied hc hc' hk h
    fun n hn m hm _ => isSome_of_outcome h' (hscheme ▸ hn) hm
  exact Except.ok.inj (h'.symm.trans hsame)

end Outcome

end XorqDatafusion.Context
