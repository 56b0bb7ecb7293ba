import Mathlib.Data.String.Basic
import Ngs3fs.Lib.Groups

/-!
# Signatures of requests

`sign_v4_impl`. The general path normalises the headers, puts them in the order of their names and
joins the values of one name; the fast path of a `GET` writes the few headers it knows in the order
they have in the end, as they are given. SHA-256 and HMAC are functions of their inputs. A text is
the list of its bytes, each as the character of that code. -/

namespace Ngs3fs.S3

abbrev Text := List Char

/-- `Header`. -/
structure Header where
  name : Text
  value : Text
  deriving DecidableEq

/-- `Credentials`. -/
structure Credentials where
  accessKeyId : Text
  secretAccessKey : Text
  sessionToken : Text

/-- `SignRequest`. -/
structure SignRequest where
  method : Text
  canonicalUri : Text
  canonicalQuery : Text
  authority : Text
  headers : List Header
  payloadHash : Text
  amzDatetime : Text
  region : Text
  service : Text
  fastGet : Bool

/-- `sha256` of a text, and `signing_hmac` of a secret, a date, a region, a service and a text. -/
structure Hashes where
  sha256 : Text → Text
  signingHmac : Text → Text → Text → Text → Text → Text

/-! ### Header values -/

def isSpace (c : Char) : Bool := c == ' ' || c == '\t' || c == '\r' || c == '\n'

/-- `has_header_whitespace`. -/
def hasHeaderWhitespace (value : Text) : Bool := value.any isSpace

/-- The loop of `normalize_header_value`. -/
def normalizeFrom (output : Text) (pendingSpace : Bool) : Text → Text
  | [] => output
  | c :: value =>
    if isSpace c then normalizeFrom output (pendingSpace || !output.isEmpty) value
    else normalizeFrom (output ++ (if pendingSpace then [' '] else []) ++ [c]) false value

/-- `normalize_header_value`. -/
def normalizeHeaderValue (value : Text) : Text :=
  if hasHeaderWhitespace value then normalizeFrom [] false value else value

def words (value : Text) : List Text := (value.splitOnP isSpace).filter (! ·.isEmpty)

def collapse (value : Text) : Text := [' '].intercalate (words value)

/-! ### The canonical request -/

def hostName : Text := "host".toList
def ifMatchName : Text := "if-match".toList
def rangeName : Text := "range".toList
def payloadHashName : Text := "x-amz-content-sha256".toList
def dateName : Text := "x-amz-date".toList
def tokenName : Text := "x-amz-security-token".toList
def authorityName : Text := ":authority".toList
def authorizationName : Text := "authorization".toList

/-- `CanonicalHeader`. -/
structure CanonicalHeader where
  name : Text
  value : Text
  deriving DecidableEq

/-- `lowercase`. -/
def lowercase (text : Text) : Text :=
  text.map fun c => if 'A' ≤ c ∧ c ≤ 'Z' then Char.ofNat (c.toNat + 32) else c

def canonicalName (name : Text) : Text :=
  if name = authorityName then hostName
  else if name.any fun c => 'A' ≤ c ∧ c ≤ 'Z' then lowercase name
  else name

/-- At the position that `std::lower_bound` finds. -/
def insertHeader (name value : Text) : List CanonicalHeader → List CanonicalHeader
  | [] => [⟨name, if hasHeaderWhitespace value then normalizeHeaderValue value else value⟩]
  | h :: headers =>
    if h.name < name then h :: insertHeader name value headers
    else if h.name = name then
      { h with value := h.value ++ [','] ++ normalizeHeaderValue value } :: headers
    else
      ⟨name, if hasHeaderWhitespace value then normalizeHeaderValue value else value⟩ ::
        h :: headers

/-- `add_canonical_header`. -/
def addCanonicalHeader (headers : List CanonicalHeader) (h : Header) : List CanonicalHeader :=
  insertHeader (canonicalName h.name) h.value headers

section
variable (hashes : Hashes) (credentials : Credentials) (request : SignRequest)

def Credentials.token : Option Text :=
  if credentials.sessionToken.isEmpty then none else some credentials.sessionToken

def addedHeaders : List Header :=
  [⟨payloadHashName, request.payloadHash⟩, ⟨dateName, request.amzDatetime⟩] ++
    (credentials.token.map fun token => ⟨tokenName, token⟩).toList

/-- The authority, the headers of the request, and those that are added. -/
def givenHeaders : List Header :=
  ⟨hostName, request.authority⟩ :: (request.headers ++ addedHeaders credentials request)

def canonicalHeaders : List CanonicalHeader :=
  (givenHeaders credentials request).foldl addCanonicalHeader []

structure Fields where
  canonical : Text
  signedNames : Text

def CanonicalHeader.line (h : CanonicalHeader) : Text := h.name ++ [':'] ++ h.value ++ ['\n']

def appendName (signedNames : Text) (h : CanonicalHeader) : Text :=
  (if signedNames.isEmpty then signedNames else signedNames ++ [';']) ++ h.name

def generalFields : Fields :=
  let headers := canonicalHeaders credentials request
  ⟨headers.flatMap CanonicalHeader.line, headers.foldl appendName []⟩

/-- `if-match` and `range`, each once at most. -/
def scanFast (ifMatch range : Option Text) : List Header → Option (Option Text × Option Text)
  | [] => some (ifMatch, range)
  | h :: headers =>
    if h.name = ifMatchName ∧ ifMatch = none then scanFast (some h.value) range headers
    else if h.name = rangeName ∧ range = none then scanFast ifMatch (some h.value) headers
    else none

def fastGetHeaders (diagnostics : Bool) : Option (Option Text × Option Text) :=
  if diagnostics || !request.fastGet || 2 < request.headers.length then none
  else scanFast none none request.headers

def fastField (name : Text) (value : Option Text) : Text :=
  match value with
  | none => []
  | some value => name ++ [':'] ++ value ++ ['\n']

def fastName (name : Text) (value : Option Text) : Text :=
  match value with
  | none => []
  | some _ => ';' :: name

def hostField : Text := "host:".toList
def payloadHashField : Text := "x-amz-content-sha256:".toList
def dateField : Text := "\nx-amz-date:".toList
def tokenField : Text := "\nx-amz-security-token:".toList
def fixedNames : Text := ";x-amz-content-sha256;x-amz-date".toList

def fastFields (ifMatch range : Option Text) : Fields where
  canonical :=
    hostField ++ request.authority ++ ['\n'] ++ fastField ifMatchName ifMatch ++
      fastField rangeName range ++ payloadHashField ++ request.payloadHash ++
      dateField ++ request.amzDatetime ++
      (credentials.token.elim [] fun token => tokenField ++ token) ++ ['\n']
  signedNames :=
    hostName ++ fastName ifMatchName ifMatch ++ fastName rangeName range ++
      fixedNames ++ fastName tokenName credentials.token

def fields (diagnostics : Bool) : Fields :=
  match fastGetHeaders request diagnostics with
  | some (ifMatch, range) => fastFields credentials request ifMatch range
  | none => generalFields credentials request

def canonicalRequest (f : Fields) : Text :=
  request.method ++ ['\n'] ++ request.canonicalUri ++ ['\n'] ++ request.canonicalQuery ++ ['\n'] ++
    f.canonical ++ ['\n'] ++ f.signedNames ++ ['\n'] ++ request.payloadHash

def scopeSuffix : Text := "/aws4_request".toList
def algorithmLine : Text := "AWS4-HMAC-SHA256\n".toList
def credentialField : Text := "AWS4-HMAC-SHA256 Credential=".toList
def signedHeadersField : Text := ",SignedHeaders=".toList
def signatureField : Text := ",Signature=".toList

def scope : Text :=
  request.amzDatetime.take 8 ++ ['/'] ++ request.region ++ ['/'] ++ request.service ++
    scopeSuffix

def toSign (f : Fields) : Text :=
  algorithmLine ++ request.amzDatetime ++ ['\n'] ++ scope request ++ ['\n'] ++
    hashes.sha256 (canonicalRequest request f)

def signature (f : Fields) : Text :=
  hashes.signingHmac credentials.secretAccessKey (request.amzDatetime.take 8) request.region
    request.service (toSign hashes request f)

def authorization (f : Fields) : Text :=
  credentialField ++ credentials.accessKeyId ++ ['/'] ++ scope request ++
    signedHeadersField ++ f.signedNames ++ signatureField ++
    signature hashes credentials request f

def resultHeaders (f : Fields) : List Header :=
  addedHeaders credentials request ++
    [⟨authorizationName, authorization hashes credentials request f⟩]

def checkRequest : Except String Unit :=
  if credentials.accessKeyId.isEmpty || credentials.secretAccessKey.isEmpty then
    .error "SigV4 credentials are incomplete"
  else if request.amzDatetime.length ≠ 16 ∨ request.amzDatetime[8]? ≠ some 'T' ∨
      request.amzDatetime.getLast? ≠ some 'Z' then
    .error "SigV4 timestamp must be YYYYMMDDTHHMMSSZ"
  else if request.payloadHash.isEmpty || request.authority.isEmpty || request.region.isEmpty then
    .error "SigV4 request fields are incomplete"
  else .ok ()

/-- `Signature`. -/
structure Signature where
  headers : List Header
  canonicalRequestHash : Text
  signedHeaderNames : Text
  deriving DecidableEq

/-- `sign_v4`. -/
def signV4 : Except String Signature := do
  checkRequest credentials request
  let f := fields credentials request true
  return ⟨resultHeaders hashes credentials request f, hashes.sha256 (canonicalRequest request f),
    f.signedNames⟩

/-- `sign_v4_headers`. -/
def signV4Headers : Except String (List Header) := do
  checkRequest credentials request
  return resultHeaders hashes credentials request (fields credentials request false)

end

end Ngs3fs.S3
