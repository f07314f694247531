import XorqDatafusion.Context.Options
import XorqDatafusion.Transition

/-! Object stores: how they are built from a URL and the table options, and how they get registered. -/
namespace XorqDatafusion.Context

open Fallible Transition

variable {F : Type}

/-- What the object store registry files a store under. -/
structure StoreKey where
  scheme : String
  host : Option String
  port : Option ℕ
deriving DecidableEq

/-- A `ListingTableUrl`: the parts of its URL, and its text. -/
structure TableUrl where
  key : StoreKey
  text : String
  collection : Bool
deriving DecidableEq

def TableUrl.scheme (url : TableUrl) : String := url.key.scheme

/-- `host_str`. -/
def TableUrl.host (url : TableUrl) : Option String := url.key.host

/-- Where `AmazonS3Builder` gets its credentials from; a provider is known by its name. -/
structure AmazonS3Builder where
  bucketName : Option String := none
  accessKeyId : Option String := none
  secretAccessKey : Option String := none
  token : Option String := none
  credentials : Option String := none
  region : Option String := none
  endpoint : Option String := none
  allowHttp : Option Bool := none
  virtualHostedStyleRequest : Bool := false
deriving DecidableEq

structure GoogleCloudStorageBuilder where
  bucketName : Option String := none
  serviceAccountPath : Option String := none
  serviceAccountKey : Option String := none
  applicationCredentials : Option String := none
deriving DecidableEq

/-- A store, known by what it was configured with; `registered` is one that other code registered. -/
inductive Store
  | amazonS3 (builder : AmazonS3Builder)
  | googleCloudStorage (builder : GoogleCloudStorageBuilder)
  | http (origin : StoreKey)
  | registered (name : String)
deriving DecidableEq

/-- What the code finds outside of it: URL parsing, the setters of option fields, the environment of
the process, and which configurations the store builders accept. -/
structure Outside (F : Type) where
  parse : String → Except ContextError TableUrl
  fields : ConfigFields F
  s3FromEnv : AmazonS3Builder
  gcsFromEnv : GoogleCloudStorageBuilder
  awsRegion : Option String
  awsCredentials : Option String
  urlScheme : String → Option String
  buildS3 : AmazonS3Builder → Except ContextError Unit
  buildGcs : GoogleCloudStorageBuilder → Except ContextError Unit
  buildHttp : StoreKey → Except ContextError Unit

def getBucketName (url : TableUrl) : Except ContextError String :=
  match url.host with
  | some host => .ok host
  | none => .error (.execution s!"Not able to parse bucket name from url: {url.text}")

/-- The credentials of the options if they have both keys, of the environment otherwise. -/
def s3Credentials (world : Outside F) (options : AwsOptions) (builder : AmazonS3Builder) :
    Except ContextError AmazonS3Builder :=
  match options.accessKeyId, options.secretAccessKey with
  | some accessKeyId, some secretAccessKey =>
    let builder := { builder with
      accessKeyId := some accessKeyId, secretAccessKey := some secretAccessKey }
    match options.sessionToken with
    | some token => .ok { builder with token := some token }
    | none => .ok builder
  | _, _ =>
    let builder := match world.awsRegion with
      | some region => { builder with region := some region }
      | none => builder
    -- the default loader always has a provider; the code asks all the same
    match world.awsCredentials with
    | some credentials => .ok { builder with credentials := some credentials }
    | none => .error (.objectStore "S3" "Failed to get S3 credentials from the environment")

def s3Endpoint (world : Outside F) (options : AwsOptions) (builder : AmazonS3Builder) :
    Except ContextError AmazonS3Builder :=
  match options.endpoint with
  | none => .ok builder
  | some endpoint =>
    if world.urlScheme endpoint = some "http" ∧ options.allowHttp ≠ some true then
      .error (.configuration (s!"Invalid endpoint: {endpoint}. " ++
        "HTTP is not allowed for S3 endpoints. To allow HTTP, set 'aws.allow_http' to true"))
    else .ok { builder with endpoint := some endpoint }

def getS3ObjectStoreBuilder (world : Outside F) (url : TableUrl) (options : AwsOptions) :
    Except ContextError AmazonS3Builder := do
  let bucketName ← getBucketName url
  let builder ← s3Credentials world options { world.s3FromEnv with bucketName := some bucketName }
  let builder := match options.region with
    | some region => { builder with region := some region }
    | none => builder
  let builder ← s3Endpoint world options builder
  return match options.allowHttp with
    | some allowHttp => { builder with allowHttp := some allowHttp }
    | none => builder

def getObjectStoreBuilder (world : Outside F) (url : TableUrl) (options : AwsOptions)
    (virtualHostedStyleRequest : Bool) : Except ContextError AmazonS3Builder := do
  let bucketName ← getBucketName url
  let builder := { world.s3FromEnv with
    virtualHostedStyleRequest, bucketName := some bucketName, region := some "do_not_care" }
  let builder := match options.accessKeyId, options.secretAccessKey with
    | some accessKeyId, some secretAccessKey => { builder with
        accessKeyId := some accessKeyId, secretAccessKey := some secretAccessKey }
    | _, _ => builder
  return match options.endpoint with
    | some endpoint => { builder with endpoint := some endpoint }
    | none => builder

def getOssObjectStoreBuilder (world : Outside F) (url : TableUrl) (options : AwsOptions) :
    Except ContextError AmazonS3Builder :=
  getObjectStoreBuilder world url options true

def getCosObjectStoreBuilder (world : Outside F) (url : TableUrl) (options : AwsOptions) :
    Except ContextError AmazonS3Builder :=
  getObjectStoreBuilder world url options false

def getGcsObjectStoreBuilder (world : Outside F) (url : TableUrl) (options : GcpOptions) :
    Except ContextError GoogleCloudStorageBuilder := do
  let bucketName ← getBucketName url
  let builder := { world.gcsFromEnv with bucketName := some bucketName }
  let builder := match options.serviceAccountPath with
    | some path => { builder with serviceAccountPath := some path }
    | none => builder
  let builder := match options.serviceAccountKey with
    | some key => { builder with serviceAccountKey := some key }
    | none => builder
  return match options.applicationCredentialsPath with
    | some path => { builder with applicationCredentials := some path }
    | none => builder

/-- `extensions.get::<AwsOptions>()`, with the error for the scheme. -/
def awsOptions (scheme : String) (options : TableOptions F) : Except ContextError AwsOptions :=
  match options.extensions .aws with
  | some aws => .ok aws
  | none => .error (.execution s!"Given table options incompatible with the '{scheme}' scheme")

def gcpOptions (options : TableOptions F) : Except ContextError GcpOptions :=
  match options.extensions .gcp with
  | some gcp => .ok gcp
  | none => .error (.execution "Given table options incompatible with the 'gs'/'gcs' scheme")

/-- `get_object_store`; `stores` is the object store registry of the session. -/
def getObjectStore (world : Outside F) (stores : StoreKey → Option Store) (url : TableUrl)
    (options : TableOptions F) : Except ContextError Store :=
  match url.scheme with
  | "s3" => do
    let builder ← getS3ObjectStoreBuilder world url (← awsOptions "s3" options)
    world.buildS3 builder
    return .amazonS3 builder
  | "oss" => do
    let builder ← getOssObjectStoreBuilder world url (← awsOptions "oss" options)
    world.buildS3 builder
    return .amazonS3 builder
  | "cos" => do
    let builder ← getCosObjectStoreBuilder world url (← awsOptions "cos" options)
    world.buildS3 builder
    return .amazonS3 builder
  | "gs" | "gcs" => do
    let builder ← getGcsObjectStoreBuilder world url (← gcpOptions options)
    world.buildGcs builder
    return .googleCloudStorage builder
  | "http" | "https" => do
    world.buildHttp url.key
    return .http url.key
  | scheme => match stores url.key with
    | some store => .ok store
    | none => .error (.execution s!"Unsupported object store scheme: {scheme}")

/-- The extension a scheme needs. -/
def schemeNamespace : String → Option Namespace
  | "s3" | "oss" | "cos" => some .aws
  | "gs" | "gcs" => some .gcp
  | _ => none

/-- The parts of the session state that the tasks share. -/
structure Runtime (F : Type) where
  tableOptions : TableOptions F
  stores : StoreKey → Option Store

/-- Where a task of `register_object_store_and_config_extensions` stands. -/
inductive Registration (F : Type)
  | spawned
  | installed (url : TableUrl)
  | altered (url : TableUrl) (options : TableOptions F)
  | built (url : TableUrl) (store : Store)
  | done (url : TableUrl) (store : Store)
  | failed (error : ContextError)

def Registration.over : Registration F → Bool
  | .done _ _ | .failed _ => true
  | _ => false

/-- The options a task applies to its copy of the session's table options. -/
def alterCopy (world : Outside F) (format : ConfigFileType) (storageOptions : List (String × String))
    (url : TableUrl) (options : TableOptions F) : Except ContextError (TableOptions F) :=
  let options := options.setConfigFormat format
  match schemeNamespace url.scheme with
  | some _ => options.alter world.fields storageOptions
  | none => .ok options

/-- A step of `register_object_store_and_config_extensions`, up to its next access to the session. -/
def registerObjectStoreAndConfigExtensions (world : Outside F) (format : ConfigFileType)
    (storageOptions : List (String × String)) (location : String) :
    Runtime F × Registration F → Option (Runtime F × Registration F)
  | (runtime, .spawned) => match world.parse location with
    | .error e => some (runtime, .failed e)
    | .ok url => match schemeNamespace url.scheme with
      | some n => some ({ runtime with tableOptions := runtime.tableOptions.install n }, .installed url)
      | none => some (runtime, .installed url)
  | (runtime, .installed url) =>
    match alterCopy world format storageOptions url runtime.tableOptions with
    | .error e => some (runtime, .failed e)
    | .ok options => some (runtime, .altered url options)
  | (runtime, .altered url options) => match getObjectStore world runtime.stores url options with
    | .error e => some (runtime, .failed e)
    | .ok store => some (runtime, .built url store)
  | (runtime, .built url store) =>
    some ({ runtime with stores := Function.update runtime.stores url.key (some store) },
      .done url store)
  | (_, .done _ _) | (_, .failed _) => none

def registration (world : Outside F) (format : ConfigFileType)
    (storageOptions : List (String × String)) (location : String) :
    Component (Runtime F) (Registration F) Unit where
  start task := task = .spawned
  step p _ q :=
    registerObjectStoreAndConfigExtensions world format storageOptions location p = some q

/-- The tasks `register_csv` and `register_parquet` spawn for their paths. -/
def registrations (world : Outside F) (format : ConfigFileType)
    (storageOptions : List (String × String)) {ι : Type} [DecidableEq ι] (location : ι → String)
    (runtime : Runtime F) : System (Runtime F × (ι → Registration F)) (ι × Unit) :=
  family (fun i => registration world format storageOptions (location i)) runtime

end XorqDatafusion.Context
