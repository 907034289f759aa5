import Roboflow.Library.UnixPath

/-! Storage URLs and the storages made for them: `StorageUrl::from_str` of `url.rs`,
`StorageFactory::create` of `factory.rs`, and how a storage resolves a path,
`LocalStorage::full_path` of `local.rs` and `S3Config::full_key` of `s3.rs`. Texts
are lists of characters. -/
namespace Roboflow.Storage
open Library

/-- `char::is_whitespace`: the Unicode property `White_Space`. -/
def isWhiteSpace (c : Char) : Bool :=
  let code := c.toNat
  (9 ≤ code && code ≤ 13) || code = 32 || code = 0x85 || code = 0xA0 || code = 0x1680 ||
    (0x2000 ≤ code && code ≤ 0x200A) || code = 0x2028 || code = 0x2029 || code = 0x202F ||
    code = 0x205F || code = 0x3000

/-- `str::trim`. -/
def trim (text : List Char) : List Char :=
  (text.dropWhile isWhiteSpace).rdropWhile isWhiteSpace

/-- `str::find` of `://`: what stands before it, and what after. -/
def splitScheme : List Char → Option (List Char × List Char)
  | [] => none
  | c :: rest =>
    if c = ':' ∧ rest.take 2 = ['/', '/'] then some ([], rest.drop 2)
    else (splitScheme rest).map fun parts => (c :: parts.1, parts.2)

/-- `str::find` of a character: what stands before it, and what after. -/
def splitAt (separator : Char) (text : List Char) : Option (List Char × List Char) :=
  match text.dropWhile (· ≠ separator) with
  | [] => none
  | _ :: after => some (text.takeWhile (· ≠ separator), after)

inductive StorageUrl where
  | localPath (path : List Char)
  | s3 (bucket key : List Char) (endpoint region : Option (List Char))
  deriving DecidableEq

inductive StorageError where
  | invalidPath (message : List Char)
  | permissionDenied (message : List Char)
  | notFound (message : List Char)
  | other (message : List Char)
  deriving DecidableEq

namespace StorageUrl

/-- One query parameter; a later one replaces an earlier one. -/
def parseParam (found : Option (List Char) × Option (List Char)) (param : List Char) :
    Option (List Char) × Option (List Char) :=
  match splitAt '=' param with
  | some (key, value) =>
    if key = "endpoint".toList then (some value, found.2)
    else if key = "region".toList then (found.1, some value)
    else found
  | none => found

/-- The text before a question mark, and the query after it. -/
def splitQuery (rest : List Char) : List Char × Option (List Char) :=
  match splitAt '?' rest with
  | some (path, query) => (path, some query)
  | none => (rest, none)

/-- The bucket and the key, empty without a slash. -/
def splitKey (path : List Char) : List Char × List Char :=
  match splitAt '/' path with
  | some (bucket, key) => (bucket, key)
  | none => (path, [])

/-- `parse_s3_url`. -/
def parseS3Url (rest : List Char) : Except StorageError StorageUrl :=
  let (path, query) := splitQuery rest
  let (bucket, key) := splitKey path
  if bucket = [] then .error (.invalidPath "S3 URL missing bucket name".toList)
  else
    let params := ((query.map (·.splitOn '&')).getD []).foldl parseParam (none, none)
    .ok (.s3 bucket key params.1 params.2)

/-- The path of a `file://` URL, from what follows the scheme. -/
def filePath (rest : List Char) : List Char :=
  if "localhost/".toList <+: rest then '/' :: rest.drop 9
  else if rest.head? = some '/' then rest
  else '/' :: rest

/-- `StorageUrl::from_str`. -/
def fromStr (text : List Char) : Except StorageError StorageUrl :=
  let s := trim text
  match splitScheme s with
  | some (scheme, rest) =>
    if scheme = "file".toList then .ok (.localPath (filePath rest))
    else if scheme = "s3".toList then parseS3Url rest
    else .error (.invalidPath ("unsupported URL scheme: ".toList ++ scheme))
  | none =>
    if "s3:".toList <+: s then
      .error (.invalidPath ("malformed cloud URL '".toList ++ s ++
        "': use s3://bucket/path (double slash required)".toList))
    else .ok (.localPath s)

end StorageUrl

/-! ### Storages -/

/-- The credentials and defaults of `StorageConfig` that the factory reads for S3. -/
structure StorageConfig where
  awsAccessKeyId : Option (List Char)
  awsSecretAccessKey : Option (List Char)
  ossAccessKeyId : Option (List Char)
  ossAccessKeySecret : Option (List Char)
  awsEndpointUrl : Option (List Char)
  awsRegion : Option (List Char)

/-- What a storage works on: a directory, or a bucket at an endpoint. -/
inductive Backend where
  | localRoot (root : List PathComponent)
  | s3 (bucket endpoint region : List Char)
  deriving DecidableEq

/-- The root chosen for a local path: its parent if there is a dot in its text. -/
def chooseRoot (path : List Char) : List PathComponent :=
  if '.' ∈ path then (UnixPath.parent (UnixPath.components path)).getD [.curDir]
  else UnixPath.components path

/-- A number of an IPv4 address: at most three digits, below 256, no leading zero. -/
def isOctet (text : List Char) : Bool :=
  text ≠ [] && text.length ≤ 3 && text.all Char.isDigit && (text.head? ≠ some '0' || text.length = 1) &&
    Nat.ofDigitChars 10 text 0 ≤ 255

/-- Whether `str::parse::<IpAddr>` takes a text that has no colon. -/
def isIpAddress (text : List Char) : Bool :=
  (text.splitOn '.').length = 4 && (text.splitOn '.').all isOctet

/-- `S3Config::validate_bucket_name`. Lengths count bytes. -/
def validateBucketName (bucket : List Char) : Except StorageError Unit :=
  let length := (bucket.map Char.utf8Size).sum
  if length < 3 ∨ 63 < length then
    .error (.invalidPath ("Bucket name must be between 3 and 63 characters, got ".toList ++
      Nat.toDigits 10 length ++ " characters".toList))
  else if !bucket.all fun c => c.isLower || c.isDigit || c = '-' || c = '.' then
    .error (.invalidPath ("Bucket name can only contain lowercase letters, numbers, hyphens, " ++
      "and dots").toList)
  else if bucket.head?.any fun c => !c.isAlphanum then
    .error (.invalidPath "Bucket name must start with a letter or number".toList)
  else if bucket.getLast?.any fun c => !c.isAlphanum then
    .error (.invalidPath "Bucket name must end with a letter or number".toList)
  else if isIpAddress bucket then
    .error (.invalidPath "Bucket name cannot be formatted as an IP address".toList)
  else .ok ()

/-- `StorageFactory::create_from_url`, where the S3 client is built. -/
def createFromUrl (config : StorageConfig) : StorageUrl → Except StorageError Backend
  | .localPath path => .ok (.localRoot (chooseRoot path))
  | .s3 bucket _ endpoint region =>
    if (config.awsAccessKeyId.or config.ossAccessKeyId).isNone then
      .error (.other ("S3 credentials not found. Set AWS_ACCESS_KEY_ID or OSS_ACCESS_KEY_ID " ++
        "environment variable.").toList)
    else if (config.awsSecretAccessKey.or config.ossAccessKeySecret).isNone then
      .error (.other ("S3 credentials not found. Set AWS_SECRET_ACCESS_KEY or " ++
        "OSS_ACCESS_KEY_SECRET environment variable.").toList)
    else do
      validateBucketName bucket
      .ok (.s3 bucket ((endpoint.or config.awsEndpointUrl).getD "s3.amazonaws.com".toList)
        ((region.or config.awsRegion).getD "us-east-1".toList))

example : validateBucketName "192.168.1.1".toList =
    .error (.invalidPath "Bucket name cannot be formatted as an IP address".toList) := by decide

/-- `StorageFactory::create`. -/
def create (config : StorageConfig) (url : List Char) : Except StorageError Backend := do
  createFromUrl config (← StorageUrl.fromStr url)

/-- One component of `normalize_path`. -/
def normalizeStep (result : List PathComponent) :
    PathComponent → Except StorageError (List PathComponent)
  | .rootDir => .ok [.rootDir]
  | .curDir => .ok result
  | .parentDir =>
    match UnixPath.parent result with
    | some up => .ok up
    | none => .error (.permissionDenied "Path traversal detected: '..' escape attempt".toList)
  | .normal name => .ok (result ++ [.normal name])

/-- `normalize_root`: a leading dot goes, and an empty path is a dot. -/
def normalizeRoot (root : List PathComponent) : List PathComponent :=
  let result := root.filter (· ≠ .curDir)
  if result = [] then [.curDir] else result

/-- `normalize_path`. -/
def normalizePath (path root : List PathComponent) : Except StorageError (List PathComponent) := do
  let result ← path.foldlM normalizeStep []
  if normalizeRoot root <+: result then .ok result
  else .error (.permissionDenied "Path traversal detected: access denied".toList)

/-- `LocalStorage::full_path`. -/
def fullPath (root : List PathComponent) (path : List Char) :
    Except StorageError (List PathComponent) :=
  normalizePath (UnixPath.join root (UnixPath.components path)) root

/-- A place in a storage: a file system path, or a key in a bucket. -/
inductive Address where
  | file (path : List PathComponent)
  | object (bucket key : List Char)
  deriving DecidableEq

/-- Where a storage looks for a path. The factory sets no key prefix. -/
def Backend.resolve (storage : Backend) (path : List Char) : Except StorageError Address :=
  match storage with
  | .localRoot root => (fullPath root path).map .file
  | .s3 bucket _ _ => .ok (.object bucket path)

/-- The place a parsed URL names. -/
def StorageUrl.address : StorageUrl → Address
  | .localPath path => .file (UnixPath.components path)
  | .s3 bucket key _ _ => .object bucket key

end Roboflow.Storage
