import AtomMqtt.V3Codec
import AtomMqtt.V5Codec

set_option autoImplicit false

/-! Authentication, and the access rules for topics. -/
namespace AtomMqtt

inductive AuthErrorKind where
  | BadUsernameOrPassword
  | AnonymousDisallowed
  | NotAuthorized
  deriving DecidableEq, Repr

inductive AuthResult where
  | Success (username : String)
  | Denied (reason : AuthErrorKind)
  deriving DecidableEq, Repr

def AuthErrorKind.toV3ReturnCode : AuthErrorKind → V3.ConnectReturnCode
  | .BadUsernameOrPassword => .BadUsernameOrPassword
  | .AnonymousDisallowed => .NotAuthorized
  | .NotAuthorized => .NotAuthorized

def AuthErrorKind.toV5ReasonCode : AuthErrorKind → V5.ReasonCode
  | .BadUsernameOrPassword => .BadUserNameOrPassword
  | .AnonymousDisallowed => .NotAuthorized
  | .NotAuthorized => .NotAuthorized

inductive AuthMethod where
  | None
  | File (path : String)
  deriving DecidableEq, Repr

/-- `str::lines` -/
def lines (s : String) : List String :=
  let pieces := s.toList.splitOn '\n'
  let ended := pieces.dropLast.map fun l => if l.getLast? == some '\r' then l.dropLast else l
  let last := pieces.getLast?.getD []
  (if last.isEmpty then ended else ended ++ [last]).map String.ofList

def splitnChars (sep : Char) : ℕ → List Char → List (List Char)
  | 0, _ => []
  | 1, s => [s]
  | n + 2, s =>
    match s.dropWhile (· != sep) with
    | [] => [s]
    | _ :: rest => s.takeWhile (· != sep) :: splitnChars sep (n + 1) rest

/-- `str::splitn` -/
def splitn (n : ℕ) (sep : Char) (s : String) : List String := (splitnChars sep n s.toList).map String.ofList

structure Authenticator where
  method : AuthMethod
  users : List (String × String)
  deriving DecidableEq, Repr

def parseUserLine (line : String) : Option (String × String) :=
  match splitn 2 ':' line with
  | [user, pass] => some (trim user, trim pass)
  | _ => none

/-- `readToString path` is the content of the file, if it can be read. -/
def Authenticator.new (readToString : String → Option String) (method : AuthMethod) : Authenticator :=
  let users := match method with
    | .None => []
    | .File path => (lines ((readToString path).getD "")).filterMap parseUserLine
  { method, users }

def Authenticator.authenticate (self : Authenticator) (allowAnonymous : Bool) (username password : Option String) :
    AuthResult :=
  match self.method with
  | .None =>
    if allowAnonymous then .Success (username.getD "anonymous")
    else
      match username with
      | some user => .Success user
      | none => .Denied .AnonymousDisallowed
  | .File _ =>
    match username with
    | some user =>
      let pass := password.getD ""
      if self.users.any fun (u, p) => u == user && p == pass then .Success user
      else .Denied .BadUsernameOrPassword
    | none => if allowAnonymous then .Success "anonymous" else .Denied .AnonymousDisallowed

inductive AclAccess where
  | Publish
  | Subscribe
  | ReadWrite
  deriving DecidableEq, Repr

structure AclEntry where
  username : String
  filter : String
  access : AclAccess
  deriving DecidableEq, Repr

structure AclChecker where
  entries : List AclEntry
  enabled : Bool
  deriving DecidableEq, Repr

def parseAclLine (line : String) : Option AclEntry :=
  let line := trim line
  if line.isEmpty || line.toList.head? == some '#' then none
  else
    match splitn 5 ' ' line with
    | [user, username, topic, access, filter] =>
      if user != "user" || topic != "topic" then none
      else
        match access with
        | "publish" => some { username, filter, access := .Publish }
        | "subscribe" => some { username, filter, access := .Subscribe }
        | "readwrite" => some { username, filter, access := .ReadWrite }
        | _ => none
    | _ => none

def AclChecker.new (readToString : String → Option String) (path : String) : AclChecker :=
  if path.isEmpty then { entries := [], enabled := false }
  else
    match readToString path with
    | none => { entries := [], enabled := false }
    | some content =>
      let entries := (lines content).filterMap parseAclLine
      { entries, enabled := !entries.isEmpty }

/-- The loop of `topic_matches_filter`: what is left of the filter and of the topic. -/
def topicMatchesLoop : List String → List String → Bool
  | [], topicSegments => topicSegments.isEmpty
  | filterSegment :: filterSegments, topicSegments =>
    if filterSegment == "#" then true
    else
      match topicSegments with
      | [] => false
      | topicSegment :: topicSegments =>
        if filterSegment != "+" && filterSegment != topicSegment then false
        else topicMatchesLoop filterSegments topicSegments

def topicMatchesFilter (topic filter : String) : Bool :=
  if filter == "#" then true else topicMatchesLoop (splitSlash filter) (splitSlash topic)

def AclAccess.grantsPublish : AclAccess → Bool
  | .Publish | .ReadWrite => true
  | .Subscribe => false

def AclAccess.grantsSubscribe : AclAccess → Bool
  | .Subscribe | .ReadWrite => true
  | .Publish => false

def AclChecker.authorizePublish (self : AclChecker) (username topic : String) : Bool :=
  if !self.enabled then true
  else self.entries.any fun entry =>
    entry.username == username && (entry.access.grantsPublish && topicMatchesFilter topic entry.filter)

def AclChecker.authorizeSubscribe (self : AclChecker) (username topicFilter : String) : Bool :=
  if !self.enabled then true
  else self.entries.any fun entry =>
    entry.username == username && (entry.access.grantsSubscribe && topicMatchesFilter topicFilter entry.filter)

end AtomMqtt
