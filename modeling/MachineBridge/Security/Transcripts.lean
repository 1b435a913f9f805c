import MachineBridge.Foundation.JsonText

/-!
# Signing transcripts

What the daemon, a device session and an administrator sign: the fields of a
request, checked one after another and joined by U+0000.
-/

namespace MachineBridge.Security

open Foundation List

/-- What the program reads of a parsed URL. -/
structure Url where
  (protocol hostname username password pathname search hash origin : Text)

/-- The URL parser.  No origin which it writes contains U+0000. -/
structure UrlPlatform where
  parse : Text → Option Url
  origin_plain : ∀ {content url}, parse content = some url → 0 ∉ url.origin

def loopbackHosts : List Text :=
  [text "127.0.0.1", text "localhost", text "[::1]"]

def canonicalTrustedOrigin (platform : UrlPlatform) (value : Option Json)
    (invalidMessage : Text) : Except Text Text :=
  match value with
  | some (.string content) =>
    match platform.parse content with
    | none => .error invalidMessage
    | some url =>
      let secure := url.protocol == text "https:"
      let loopback := url.protocol == text "http:" &&
        loopbackHosts.contains url.hostname
      if (!secure && !loopback) || !url.username.isEmpty ||
          !url.password.isEmpty || url.pathname != text "/" ||
          !url.search.isEmpty || !url.hash.isEmpty then
        .error invalidMessage
      else .ok url.origin
  | _ => .error invalidMessage

structure PublicJwk where
  (x y : Text)

/-- `/^[A-Za-z0-9_-]{42,44}$/` -/
def isCoordinate : Text → Bool := fits isBase64Url 42 44

def canonicalPublicJwk (value : Option Json) : Except Text PublicJwk :=
  let failed := .error (text "device session public key is invalid")
  match value with
  | some (.object fields) =>
    match fields.lookup (text "kty"), fields.lookup (text "crv"),
        fields.lookup (text "x"), fields.lookup (text "y"),
        fields.lookup (text "d") with
    | some (.string kty), some (.string crv), some (.string x),
        some (.string y), none =>
        if kty != text "EC" || crv != text "P-256" then failed
        else if !isCoordinate x || !isCoordinate y then failed
        else .ok { x, y }
    | _, _, _, _, _ => failed
  | _ => failed

/-- `JSON.stringify` of a canonical key. -/
def PublicJwk.stringify (key : PublicJwk) : Text :=
  Json.stringify NumberFormat.naturals
    (.object [(text "crv", .string (text "P-256")),
      (text "kty", .string (text "EC")), (text "x", .string key.x),
      (text "y", .string key.y)])

/-- A condition on strings which keeps the separator out. -/
structure StringPattern where
  test : Text → Bool
  plain : ∀ {content}, test content = true → 0 ∉ content

/-- How a transcript gets the text of a field. -/
inductive FieldCheck where
  | constant (content : Text) (plain : 0 ∉ content)
  | string (pattern : StringPattern) (failure : Text)
  | integer (failure : Text)
  | origin (failure : Text)
  | publicJwk

def StringPattern.read (pattern : StringPattern) (failure : Text)
    (value : Option Json) : Except Text Text :=
  match value with
  | some (.string content) =>
    if pattern.test content then .ok content else .error failure
  | _ => .error failure

def readInteger (failure : Text) (value : Option Json) : Except Text Text :=
  match value.bind Json.safeInteger? with
  | some number =>
    if number ≤ 0 then .error failure else .ok (decimal number.toNat)
  | none => .error failure

def FieldCheck.run (platform : UrlPlatform) (value : Option Json) :
    FieldCheck → Except Text Text
  | constant content _ => .ok content
  | string pattern failure => pattern.read failure value
  | integer failure => readInteger failure value
  | origin failure => canonicalTrustedOrigin platform value failure
  | publicJwk => (canonicalPublicJwk value).map PublicJwk.stringify

def invalid (scope label : String) : Text :=
  text scope ++ text " " ++ text label ++ text " is invalid"

/-- The class `[\0\r\n]`. -/
def breaksLine (unit : UInt16) : Bool :=
  unit == 0 || unit == 0x0D || unit == 0x0A

def requiredText (scope label : String) (minimum maximum : Nat) : FieldCheck :=
  .string
    { test := fun content =>
        !(content.length < minimum || content.length > maximum ||
          content.any breaksLine)
      plain := by
        intro content accepted inside
        rw [Bool.not_eq_true', Bool.or_eq_false_iff, any_eq_false]
          at accepted
        exact accepted.2 0 inside rfl }
    (invalid scope label)

def requiredInteger (scope label : String) : FieldCheck :=
  .integer (invalid scope label)

def requiredToken (label : String) (pattern : StringPattern) : FieldCheck :=
  .string pattern (invalid "admin authentication" label)

/-- The pattern `^label[class]{low,high}$`. -/
def tokenPattern (label : Text) (clean : 0 ∉ label) (allowed : UInt16 → Bool)
    (never : allowed 0 = false) (low high : Nat) : StringPattern where
  test := labelled label (fits allowed low high)
  plain := by
    intro content accepted
    rw [labelled, Bool.and_eq_true, isPrefixOf_iff_prefix] at accepted
    obtain ⟨⟨rest, rfl⟩, inside⟩ := accepted
    rw [drop_left, fits_iff, all_eq_true] at inside
    rw [mem_append, not_or]
    refine ⟨clean, ?_⟩
    intro zero
    have permitted := inside.2.2 0 zero
    rw [never] at permitted
    cases permitted

/-- A field of a transcript and the property of the input it is read from. -/
structure SignedField where
  name : String
  check : FieldCheck

def scheme (content : Text) (plain : 0 ∉ content) : SignedField :=
  ⟨"", .constant content plain⟩

/-- An input is an object, and a property may be absent. -/
abbrev SigningInput := String → Option Json

variable (platform : UrlPlatform)

def SignedField.read (input : SigningInput) (field : SignedField) :
    Except Text Text :=
  field.check.run platform (input field.name)

/-- The fields in their order, as far as the first one which fails. -/
def joined (fields : List SignedField) (input : SigningInput) :
    Except Text Text :=
  (fields.mapM (SignedField.read platform input)).map [0].intercalate

def daemonOrigin : SignedField :=
  ⟨"workerOrigin",
    .origin (text "daemon authentication Worker origin is invalid")⟩

def daemonText (name label : String) (minimum maximum : Nat) : SignedField :=
  ⟨name, requiredText "daemon authentication" label minimum maximum⟩

def daemonInteger (name label : String) : SignedField :=
  ⟨name, requiredInteger "daemon authentication" label⟩

def daemonPreflightFields : List SignedField :=
  [scheme (text "device-preflight-v1") (by decide),
    daemonOrigin,
    daemonText "server" "server" 1 128,
    daemonText "version" "version" 1 64,
    daemonText "nonce" "preflight nonce" 24 128,
    daemonInteger "issuedAt" "preflight issued at"]

def daemonPreflightTranscript : SigningInput → Except Text Text :=
  joined platform daemonPreflightFields

def daemonAuthFields : List SignedField :=
  [scheme (text "device-signature-v1") (by decide),
    daemonText "challenge" "challenge" 16 256,
    daemonOrigin,
    daemonText "server" "server" 1 128,
    daemonText "version" "version" 1 64,
    daemonText "instanceId" "instance id" 16 128,
    daemonInteger "issuedAt" "issued at"]

def daemonAuthTranscript : SigningInput → Except Text Text :=
  joined platform daemonAuthFields

def daemonHttpRelayFields : List SignedField :=
  [scheme (text "device-http-relay-v1") (by decide),
    scheme (text "POST") (by decide),
    scheme (text "/daemon/http") (by decide),
    daemonOrigin,
    daemonText "server" "server" 1 128,
    daemonText "version" "version" 1 64,
    daemonText "nonce" "HTTP relay nonce" 24 128,
    daemonInteger "issuedAt" "HTTP relay issued at",
    daemonText "bodySha256" "HTTP relay body SHA-256" 43 43]

def daemonHttpRelayTranscript : SigningInput → Except Text Text :=
  joined platform daemonHttpRelayFields

def deviceText (name label : String) (minimum maximum : Nat) : SignedField :=
  ⟨name, requiredText "device session" label minimum maximum⟩

def deviceInteger (name label : String) : SignedField :=
  ⟨name, requiredInteger "device session" label⟩

def deviceSessionCertificateFields : List SignedField :=
  [scheme (text "device-session-certificate-v1") (by decide),
    ⟨"workerOrigin", .origin (text "device session Worker origin is invalid")⟩,
    deviceText "server" "server" 1 128,
    deviceText "version" "version" 1 64,
    deviceText "rootKeyId" "root key id" 16 128,
    ⟨"publicJwk", .publicJwk⟩,
    deviceInteger "issuedAt" "issued at",
    deviceInteger "expiresAt" "expires at",
    deviceText "nonce" "nonce" 24 128]

/-- The key is checked before the other fields. -/
def deviceSessionCertificateTranscript (input : SigningInput) :
    Except Text Text := do
  let _ ← canonicalPublicJwk (input "publicJwk")
  joined platform deviceSessionCertificateFields input

/-- The class `[A-Za-z0-9/_-]`. -/
def isPathUnit (unit : UInt16) : Bool := isBase64Url unit || unit == 0x2F

def adminAuthFields : List SignedField :=
  [scheme (text "device-admin-signature-v1") (by decide),
    ⟨"origin", .origin (text "admin authentication origin is invalid")⟩,
    ⟨"method", requiredToken "method"
      (tokenPattern [] (by decide) isUpper rfl 3 10)⟩,
    ⟨"pathname", requiredToken "pathname"
      (tokenPattern (text "/") (by decide) isPathUnit rfl 1 255)⟩,
    ⟨"bodyHash", requiredToken "body hash"
      (tokenPattern [] (by decide) isHex rfl 64 64)⟩,
    ⟨"keyId", requiredToken "session key id"
      (tokenPattern (text "device_") (by decide) isBase64Url rfl 32 32)⟩,
    ⟨"issuedAt", requiredInteger "admin authentication" "issued at"⟩,
    ⟨"nonce", requiredToken "nonce"
      (tokenPattern [] (by decide) isBase64Url rfl 32 128)⟩]

def adminAuthTranscript : SigningInput → Except Text Text :=
  joined platform adminAuthFields

variable {platform} {value one other : Option Json} {content : Text}

theorem coordinate_plain (coordinate : isCoordinate content = true) :
    content.all isPlain = true := by
  have every := (fits_iff.mp coordinate).2.2
  rw [all_eq_true] at *
  exact fun unit inside => isPlain_of_isBase64Url (every unit inside)

theorem coordinate_free {unit : UInt16} (strange : isPlain unit = false)
    (coordinate : isCoordinate content = true) : unit ∉ content := by
  intro inside
  have plain := coordinate_plain coordinate
  rw [all_eq_true] at plain
  rw [plain unit inside] at strange
  cases strange

theorem canonicalPublicJwk_eq_ok {key : PublicJwk}
    (accepted : canonicalPublicJwk value = .ok key) :
    isCoordinate key.x = true ∧ isCoordinate key.y = true := by
  unfold canonicalPublicJwk at accepted
  split at accepted
  case h_1 fields =>
    split at accepted
    case h_1 =>
      split at accepted
      case isTrue => cases accepted
      case isFalse =>
        split at accepted
        case isTrue => cases accepted
        case isFalse coordinates =>
          cases accepted
          simp only [Bool.or_eq_true, not_or, Bool.not_eq_true,
            Bool.not_eq_false'] at coordinates
          exact coordinates
    case h_2 => cases accepted
  case h_2 => cases accepted

theorem stringify_eq {key : PublicJwk}
    (accepted : canonicalPublicJwk value = .ok key) : key.stringify =
    text "\x7b\"crv\":\"P-256\",\"kty\":\"EC\",\"x\":\"" ++
    (key.x ++ 0x22 :: (text ",\"y\":\"" ++ (key.y ++ 0x22 :: text "\x7d"))) :=
    by
  obtain ⟨first, second⟩ := canonicalPublicJwk_eq_ok accepted
  simp only [PublicJwk.stringify, Json.stringify, Json.stringifyFields,
    commaSeparated, quoted, escapeUnits_of_isPlain (coordinate_plain first),
    escapeUnits_of_isPlain (coordinate_plain second), append_assoc,
    cons_append]
  rfl

theorem stringify_plain {key : PublicJwk}
    (accepted : canonicalPublicJwk value = .ok key) : 0 ∉ key.stringify := by
  obtain ⟨first, second⟩ := canonicalPublicJwk_eq_ok accepted
  rw [stringify_eq accepted]
  simp only [mem_append, mem_cons, not_or]
  exact ⟨by decide, coordinate_free rfl first, by decide, by decide,
    coordinate_free rfl second, by decide, by decide⟩

theorem stringify_injective {first second : PublicJwk}
    (here : canonicalPublicJwk one = .ok first)
    (there : canonicalPublicJwk other = .ok second)
    (same : first.stringify = second.stringify) : first = second := by
  obtain ⟨x, y⟩ := canonicalPublicJwk_eq_ok here
  obtain ⟨x', y'⟩ := canonicalPublicJwk_eq_ok there
  rw [stringify_eq here, stringify_eq there] at same
  obtain ⟨abscissa, rest⟩ := append_separator_inj (coordinate_free rfl x)
    (coordinate_free rfl x') (append_cancel_left same)
  obtain ⟨ordinate, -⟩ := append_separator_inj (coordinate_free rfl y)
    (coordinate_free rfl y') (append_cancel_left rest)
  cases first
  cases second
  cases abscissa
  cases ordinate
  rfl

/-- Two values which a check does not tell apart: origins and keys are compared
in their canonical form. -/
def FieldCheck.Agree (platform : UrlPlatform) (one other : Option Json) :
    FieldCheck → Prop
  | constant _ _ => True
  | string _ _ | integer _ => one = other
  | origin failure =>
    canonicalTrustedOrigin platform one failure =
      canonicalTrustedOrigin platform other failure
  | publicJwk => canonicalPublicJwk one = canonicalPublicJwk other

theorem StringPattern.read_eq_ok {pattern : StringPattern} {failure : Text}
    (accepted : pattern.read failure value = .ok content) :
    value = some (.string content) ∧ pattern.test content = true := by
  unfold StringPattern.read at accepted
  split at accepted
  case h_1 =>
    split at accepted
    case isTrue passes =>
      cases accepted
      exact ⟨rfl, passes⟩
    case isFalse => cases accepted
  case h_2 => cases accepted

theorem readInteger_eq_ok {failure : Text}
    (accepted : readInteger failure value = .ok content) : ∃ number : Nat,
    value = some (.number number) ∧ content = decimal number := by
  unfold readInteger at accepted
  split at accepted
  case h_1 number read =>
    split at accepted
    case isTrue => cases accepted
    case isFalse positive =>
      cases accepted
      obtain ⟨given, held, integer⟩ := Option.bind_eq_some_iff.mp read
      cases given with
      | number exact =>
        rw [Json.safeInteger?] at integer
        split at integer
        case isTrue safe =>
          cases integer
          simp only [Bool.and_eq_true, decide_eq_true_eq] at safe
          refine ⟨exact.num.toNat, ?_, rfl⟩
          have natural : ((exact.num.toNat : Int) : ℚ) = exact := by
            rw [Int.toNat_of_nonneg (by omega)]
            exact Rat.coe_int_num_of_den_eq_one safe.1
          rw [held]
          exact congrArg (some <| Json.number ·) natural.symm
        case isFalse => cases integer
      | _ => cases integer
  case h_2 => cases accepted

theorem stringified_eq_ok (accepted : (canonicalPublicJwk value).map
    PublicJwk.stringify = .ok content) : ∃ key, canonicalPublicJwk value = .ok
    key ∧ content = key.stringify := by
  cases found : canonicalPublicJwk value with
  | error failure =>
    rw [found] at accepted
    cases accepted
  | ok key =>
    rw [found] at accepted
    cases accepted
    exact ⟨key, rfl, rfl⟩

theorem zero_not_mem_decimal (number : Nat) : 0 ∉ decimal number := by
  intro inside
  rw [decimal] at inside
  split at inside
  · exact absurd inside (by decide)
  · obtain ⟨digit, member, zero⟩ := List.mem_map.mp inside
    have small := Nat.digits_lt_base (by decide : 1 < 10)
      (mem_reverse.mp member)
    have code := congrArg UInt16.toNat zero
    rw [toNat_toUInt16 (by omega)] at code
    exact absurd code (Nat.ne_of_gt (Nat.add_pos_left (by decide) _))

theorem canonicalTrustedOrigin_plain {failure : Text}
    (accepted : canonicalTrustedOrigin platform value failure = .ok content) :
    0 ∉ content := by
  unfold canonicalTrustedOrigin at accepted
  split at accepted
  case h_1 =>
    split at accepted
    case h_1 => cases accepted
    case h_2 url parsed =>
      dsimp only at accepted
      split at accepted
      case isTrue => cases accepted
      case isFalse =>
        cases accepted
        exact platform.origin_plain parsed
  case h_2 => cases accepted

theorem run_plain {check : FieldCheck}
    (accepted : check.run platform value = .ok content) : 0 ∉ content := by
  cases check with
  | constant expected plain =>
    cases accepted
    exact plain
  | string pattern failure =>
    exact pattern.plain (StringPattern.read_eq_ok accepted).2
  | integer failure =>
    obtain ⟨number, -, rfl⟩ := readInteger_eq_ok accepted
    exact zero_not_mem_decimal number
  | origin failure => exact canonicalTrustedOrigin_plain accepted
  | publicJwk =>
    obtain ⟨key, found, rfl⟩ := stringified_eq_ok accepted
    exact stringify_plain found

theorem agree_of_run {check : FieldCheck}
    (first : check.run platform one = .ok content)
    (second : check.run platform other = .ok content) :
    check.Agree platform one other := by
  cases check with
  | constant expected plain => trivial
  | string pattern failure =>
    exact (StringPattern.read_eq_ok first).1.trans
      (StringPattern.read_eq_ok second).1.symm
  | integer failure =>
    obtain ⟨number, rfl, here⟩ := readInteger_eq_ok first
    obtain ⟨number', rfl, there⟩ := readInteger_eq_ok second
    rw [FieldCheck.Agree, decimal_injective (here.symm.trans there)]
  | origin failure => exact first.trans second.symm
  | publicJwk =>
    obtain ⟨key, found, here⟩ := stringified_eq_ok first
    obtain ⟨key', found', there⟩ := stringified_eq_ok second
    rw [FieldCheck.Agree, found, found',
      stringify_injective found found' (here.symm.trans there)]

variable {signed : List SignedField} {input input' : SigningInput}
  {transcript : Text}

def Reads (platform : UrlPlatform) (input : SigningInput) (field : SignedField)
    (content : Text) : Prop :=
  field.read platform input = .ok content

theorem reads_of_mapM {contents : List Text}
    (accepted : signed.mapM (SignedField.read platform input) = .ok contents) :
    List.Forall₂ (Reads platform input) signed contents := by
  induction signed generalizing contents with
  | nil =>
    cases accepted
    exact .nil
  | cons field signed induction =>
    rw [mapM_cons] at accepted
    cases here : field.read platform input with
    | error failure =>
      rw [here] at accepted
      cases accepted
    | ok content =>
      cases later : signed.mapM (SignedField.read platform input) with
      | error failure =>
        rw [here, later] at accepted
        cases accepted
      | ok rest =>
        rw [here, later] at accepted
        cases accepted
        exact .cons here (induction later)

theorem plain_of_reads {contents : List Text}
    (reads : List.Forall₂ (Reads platform input) signed contents) :
    ∀ content ∈ contents, 0 ∉ content := by
  induction reads with
  | nil =>
    intro content inside
    cases inside
  | cons here later induction =>
    rw [forall_mem_cons]
    exact ⟨run_plain here, induction⟩

theorem reads_of_joined (present : signed ≠ [])
    (accepted : joined platform signed input = .ok transcript) :
    List.Forall₂ (Reads platform input) signed (transcript.splitOn 0) := by
  rw [joined] at accepted
  cases found : signed.mapM (SignedField.read platform input) with
  | error failure =>
    rw [found] at accepted
    cases accepted
  | ok contents =>
    rw [found] at accepted
    cases accepted
    have reads := reads_of_mapM found
    have filled : contents ≠ [] := by
      rintro rfl
      cases reads
      exact present rfl
    rw [splitOn_intercalate 0 (plain_of_reads reads) filled]
    exact reads

theorem agree_of_reads {contents : List Text}
    (first : List.Forall₂ (Reads platform input) signed contents)
    (second : List.Forall₂ (Reads platform input') signed contents) :
    ∀ field ∈ signed,
    field.check.Agree platform (input field.name) (input' field.name) := by
  induction first with
  | nil =>
    intro field inside
    cases inside
  | cons here later induction =>
    cases second with
    | cons there after =>
      rw [forall_mem_cons]
      exact ⟨agree_of_run here there, induction after⟩

inductive TranscriptKind where
  | daemonPreflight
  | daemonAuth
  | daemonHttpRelay
  | deviceSessionCertificate
  | adminAuth

namespace TranscriptKind

def fields : TranscriptKind → List SignedField
  | daemonPreflight => daemonPreflightFields
  | daemonAuth => daemonAuthFields
  | daemonHttpRelay => daemonHttpRelayFields
  | deviceSessionCertificate => deviceSessionCertificateFields
  | adminAuth => adminAuthFields

def build (platform : UrlPlatform) :
    TranscriptKind → SigningInput → Except Text Text
  | daemonPreflight => daemonPreflightTranscript platform
  | daemonAuth => daemonAuthTranscript platform
  | daemonHttpRelay => daemonHttpRelayTranscript platform
  | deviceSessionCertificate => deviceSessionCertificateTranscript platform
  | adminAuth => adminAuthTranscript platform

theorem reads_of_build {kind : TranscriptKind}
    (accepted : kind.build platform input = .ok transcript) : List.Forall₂
    (Reads platform input) kind.fields (transcript.splitOn 0) := by
  cases kind with
  | deviceSessionCertificate =>
    apply reads_of_joined (cons_ne_nil _ _)
    rw [build, deviceSessionCertificateTranscript] at accepted
    cases found : canonicalPublicJwk (input "publicJwk") with
    | error failure =>
      rw [found] at accepted
      cases accepted
    | ok key =>
      rw [found] at accepted
      exact accepted
  | daemonPreflight | daemonAuth | daemonHttpRelay | adminAuth =>
    exact reads_of_joined (cons_ne_nil _ _) accepted

def tag : TranscriptKind → Text
  | daemonPreflight => text "device-preflight-v1"
  | daemonAuth => text "device-signature-v1"
  | daemonHttpRelay => text "device-http-relay-v1"
  | deviceSessionCertificate => text "device-session-certificate-v1"
  | adminAuth => text "device-admin-signature-v1"

theorem tag_injective : Function.Injective tag := by
  intro kind kind' same
  cases kind <;> cases kind' <;> first | rfl | exact absurd same (by decide)

theorem head_of_reads {kind : TranscriptKind} {contents : List Text}
    (reads : List.Forall₂ (Reads platform input) kind.fields contents) :
    contents.head? = some kind.tag := by
  cases kind with
  | daemonPreflight | daemonAuth | daemonHttpRelay
  | deviceSessionCertificate | adminAuth =>
    cases reads with
    | cons here later => exact congrArg some (Except.ok.inj here).symm

/-- A parser which knows one URL. -/
def workerUrls : UrlPlatform where
  parse content :=
    if content = text "https://Worker.example/" then
      some
        { protocol := text "https:", hostname := text "worker.example"
          username := [], password := [], pathname := text "/", search := []
          hash := [], origin := text "https://worker.example" }
    else none
  origin_plain := by
    intro content url parsed
    split at parsed
    · cases parsed
      decide
    · cases parsed

def preflightInput (name : String) : Option Json :=
  match name with
  | "workerOrigin" => some (.string (text "https://Worker.example/"))
  | "server" => some (.string (text "machine-bridge"))
  | "version" => some (.string (text "1.0.0"))
  | "nonce" => some (.string (text "abcdefghijklmnopqrstuvwx"))
  | "issuedAt" => some (.number 1700000000)
  | _ => none

end TranscriptKind

end MachineBridge.Security
