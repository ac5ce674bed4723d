import WhichStream.Firebase.Backend

/-!
The responses of the service of FirebaseAuth, read from dictionaries. A field that is declared
as a text is refused here if it is of another class; the code keeps it and fails at its first use.
-/

namespace WhichStream.Firebase

open KeyedArchives

-- How the system reads numbers and URLs.
structure Foundation where
  doubleValue : String → ℚ
  URLWithString : String → Option NSURL

namespace NSDictionary

def text (d : NSDictionary) (key : String) : Except NSException (Option String) :=
  match d.lookup key with
  | none => .ok none
  | some (.string s) => .ok (some s)
  | some _ => .error .unrecognizedSelector

-- A text that does not start with a number is false, unless it starts with a Y or a T.
def boolValueOf (s : List Char) : Bool :=
  let unsigned := match s.dropWhile FIRAuthBackend.whitespaceCharacterSet with
    | '+' :: rest => rest
    | '-' :: rest => rest
    | rest => rest
  (unsigned.dropWhile (fun c => c = '0')).head?.any
    (fun c => c ∈ ['Y', 'y', 'T', 't'] || '1' ≤ c && c ≤ '9')

def boolValue (d : NSDictionary) (key : String) : Except NSException Bool :=
  match d.lookup key with
  | none => .ok false
  | some (.bool b) => .ok b
  | some (.number n) => .ok (n ≠ 0)
  | some (.string s) => .ok (boolValueOf s.toList)
  | some _ => .error .unrecognizedSelector

variable (F : Foundation)

def url (d : NSDictionary) (key : String) : Except NSException (Option NSURL) :=
  (text d key).map (fun s => s.bind F.URLWithString)

-- Milliseconds since 1970, in the seconds of `NSDate`.
def date (d : NSDictionary) (key : String) : Option NSDate :=
  ((d.lookup key).bind JSON.string?).map (fun s => F.doubleValue s / 1000 - 978307200)

end NSDictionary

open NSDictionary

variable (F : Foundation)

-- `FIRVerifyPasswordResponse` and `FIRSignUpNewUserResponse`.
def IssuedTokens.setWithDictionary (now : NSDate) (d : NSDictionary) :
    Except NSException (Except (Option NSError) IssuedTokens) := do
  let IDToken ← text d "idToken"
  let refreshToken ← text d "refreshToken"
  let approximateExpirationDate :=
    ((d.lookup "expiresIn").bind JSON.string?).map (fun s => now + F.doubleValue s)
  return .ok ⟨IDToken, approximateExpirationDate, refreshToken⟩

def SecureTokenResponse.setWithDictionary (now : NSDate) (d : NSDictionary) :
    Except NSException (Except (Option NSError) SecureTokenResponse) := do
  let accessToken ← text d "access_token"
  let unexpected := some (FIRAuthErrorUtils.unexpectedResponse (.dictionary d))
  match accessToken with
  | none => return .error unexpected
  | some token =>
    if present : token = "" then return .error unexpected
    else
      match (d.lookup "expires_in").bind JSON.string? with
      | none => return .error unexpected
      | some s =>
        -- The refresh token of a response that is refused is never looked at.
        let refreshToken ← text d "refresh_token"
        return .ok ⟨token, now + F.doubleValue s, refreshToken, present⟩

namespace GetAccountInfoResponseProviderUserInfo

-- A provider without a name has no key in the user's dictionary of providers.
def initWithDictionary (json : JSON) :
    Except NSException GetAccountInfoResponseProviderUserInfo :=
  match json.dictionary? with
  | none => .error .unrecognizedSelector
  | some d => do
    let providerID ← text d "providerId"
    let displayName ← text d "displayName"
    let photoURL ← url F d "photoUrl"
    let federatedID ← text d "federatedId"
    let email ← text d "email"
    let phoneNumber ← text d "phoneNumber"
    match providerID with
    | none => throw .invalidArgument
    | some providerID => return ⟨providerID, displayName, photoURL, federatedID, email, phoneNumber⟩

def initWithDictionaries (json : Option JSON) :
    Except NSException (List GetAccountInfoResponseProviderUserInfo) :=
  match json with
  | none => .ok []
  | some (.array values) => values.mapM (initWithDictionary F)
  | some (.dictionary []) => .ok []
  | some _ => .error .unrecognizedSelector

end GetAccountInfoResponseProviderUserInfo

namespace GetAccountInfoResponseUser

def initWithDictionary (json : JSON) : Except NSException GetAccountInfoResponseUser :=
  match json.dictionary? with
  | none => .error .unrecognizedSelector
  | some d => do
    let providerUserInfo ← GetAccountInfoResponseProviderUserInfo.initWithDictionaries F
      (d.lookup "providerUserInfo")
    let localID ← text d "localId"
    let displayName ← text d "displayName"
    let email ← text d "email"
    let photoURL ← url F d "photoUrl"
    let emailVerified ← boolValue d "emailVerified"
    let passwordHash ← text d "passwordHash"
    let phoneNumber ← text d "phoneNumber"
    return {
      localID, displayName, email, photoURL
      creationDate := date F d "createdAt"
      lastLoginDate := date F d "lastLoginAt"
      emailVerified, passwordHash, phoneNumber, providerUserInfo }

-- `FIRGetAccountInfoResponse`, for its only user.
def setWithDictionary (d : NSDictionary) :
    Except NSException (Except (Option NSError) GetAccountInfoResponseUser) :=
  match (d.lookup "users").bind JSON.array? with
  | some [user] => (initWithDictionary F user).map .ok
  | _ => .ok (.error (some (FIRAuthErrorUtils.unexpectedResponse (.dictionary d))))

end GetAccountInfoResponseUser

-- `FIRGetOOBConfirmationCodeResponse`: nothing asks for the code itself.
def OOBConfirmationCode.setWithDictionary (_ : NSDictionary) :
    Except NSException (Except (Option NSError) Unit) := .ok (.ok ())

end WhichStream.Firebase
