import MachineBridge.Foundation.PosixPath

/-!
# Sensitive paths

A path is sensitive by one of its segments, by a configuration directory of a
known client, or by its last segment: environment files, keys, state files and
credentials.
-/

namespace MachineBridge.Security

open Foundation

def sensitiveSegments : List Text :=
  [".git", ".ssh", ".aws", ".azure", ".gnupg", ".kube", ".docker", ".npmrc",
    ".pypirc", "keychains", "cookies", "login data", "credentials",
    "secrets"].map text

def sensitiveConfigSegments : List Text :=
  ["gh", "gcloud", "azure", "1password"].map text

def concatenations : List (List Text) → List Text
  | [] => [[]]
  | choices :: rest =>
    choices.flatMap fun choice => (concatenations rest).map (choice ++ ·)

def isLineTerminator (unit : UInt16) : Bool :=
  unit == 0x0A || unit == 0x0D || unit == 0x2028 || unit == 0x2029

/-- `^(?:id_(?:rsa|dsa|ecdsa|ed25519)|identity)(?:\.(?:pem|key))?$` -/
def privateKeyBasename : List Text :=
  concatenations
    [["id_rsa", "id_dsa", "id_ecdsa", "id_ed25519", "identity"].map text,
      ["", ".pem", ".key"].map text]

section

variable (base : Text)

/-- `\.(?:pem|key|p12|pfx|p8|jks|keystore)$` -/
def privateKeyExtension : Bool :=
  (concatenations [[text "."], ["pem", "key", "p12", "pfx", "p8", "jks",
    "keystore"].map text]).any fun ending => ending.isSuffixOf base

/-- `^(?:terraform\.tfstate(?:\.backup)?|.*\.tfstate(?:\.backup)?)$` -/
def sensitiveStateBasename : Bool :=
  (concatenations [[text ".tfstate"], ["", ".backup"].map text]).any
    fun ending => ending.isSuffixOf base &&
      (base.take (base.length - ending.length)).all fun unit =>
        !isLineTerminator unit

def credentialStems : List Text :=
  [".netrc", "netrc", "_netrc", ".curlrc"].map text ++
    concatenations
      [["access", "refresh", "auth", "oauth", "api", "client"].map text,
        ["", "-", "_"].map text, ["token", "key", "secret"].map text,
        ["", "s"].map text] ++
    concatenations [[text "service"], ["", "-", "_"].map text,
      [text "account"]] ++
    ["token", "tokens", "secret", "secrets", "credential",
      "credentials"].map text

/-- A stem, with a data extension or without. -/
def sensitiveCredentialBasename : List Text :=
  concatenations [credentialStems,
    ["", ".json", ".yaml", ".yml", ".toml", ".ini", ".conf", ".cfg", ".txt",
      ".db", ".sqlite"].map text]

def isSensitiveEnvironmentFile : Bool :=
  if base == text ".env" then true
  else if !(text ".env.").isPrefixOf base then false
  else !([".env.example", ".env.sample", ".env.template",
    ".env.defaults"].map text).contains base

end

def isPathSeparator (unit : UInt16) : Bool := unit == 0x5C || unit == slash

/-- `split(/[\\/]+/)` -/
def splitSeparators : Text → List Text
  | [] => [[]]
  | unit :: rest =>
    if isPathSeparator unit then
      if (rest.head?.map isPathSeparator).getD false then
        splitSeparators rest
      else [] :: splitSeparators rest
    else
      match splitSeparators rest with
      | [] => [[unit]]
      | part :: parts => (unit :: part) :: parts

/-- `basename` of the text of a resolved path. -/
def basename (content : Text) : Text :=
  ((content.splitOn slash).getLast?).getD []

def sensitiveConfig : List Text → Bool
  | segment :: next :: rest =>
    (segment == text ".config" && sensitiveConfigSegments.contains next) ||
      sensitiveConfig (next :: rest)
  | _ => false

def isSensitivePath (target : Path) : Bool :=
  let lower := toLowerCase target.toText
  let segments := splitSeparators lower
  let base := basename lower
  segments.any sensitiveSegments.contains || sensitiveConfig segments ||
    isSensitiveEnvironmentFile base || privateKeyBasename.contains base ||
    privateKeyExtension base || sensitiveStateBasename base ||
    sensitiveCredentialBasename.contains base ||
    (["authorized_keys", "known_hosts.old", "id_ecdsa_sk",
      "id_ed25519_sk"].map text).contains base

inductive AccountRole where
  | reviewer
  | editor
  | operator
  | owner
deriving DecidableEq

inductive Origin where
  | local
  | relay
deriving DecidableEq

inductive Principal where
  | local
  | account (role : AccountRole)

/-- The authority under which an operation runs. -/
structure OperationContext where
  origin : Origin
  principal : Principal
  owner : Bool

/-- Sensitive files are hidden from an account which is not the owner. -/
def isDelegatedRelayContext (context : OperationContext) : Bool :=
  match context.origin, context.principal with
  | .relay, .account role => role != .owner && !context.owner
  | _, _ => false

end MachineBridge.Security
