import Mathlib.Data.Rat.Init
import Mathlib.Algebra.Order.Ring.Unbundled.Rat
import WhichStream.Facebook.Login

/-!
The cache that keeps the Facebook token from one launch to the next, in the keychain and in
the defaults of the user, and the caches of earlier versions, which it takes over.
-/

namespace WhichStream.Facebook

open EventMachine

abbrev NSDate := ℚ

def NSDate.distantFuture : NSDate := 63113904000

-- A token with its dates, which a login does not look at.
structure DatedAccessToken extends FBSDKAccessToken where
  expirationDate : NSDate
  refreshDate : NSDate
  deriving DecidableEq

-- The dictionary of an earlier version; `token` is what it gives as a text.
structure TokenInformation where
  UUID : Option String
  token : Option String
  expirationDate : Option NSDate
  userFBID : Option String
  permissions : Option (Finset String)
  declinedPermissions : Option (Finset String)
  appID : Option String
  refreshDate : Option NSDate
  deriving DecidableEq

-- A field of another class than expected is absent here.
structure CachedToken where
  tokenUUID : Option String
  tokenEncoded : Option DatedAccessToken
  deriving DecidableEq

-- The caches `v4`, `v3_21` and `v3_17` are items of the keychain, the others defaults.
structure TokenCache where
  v4 : Option CachedToken
  v3_21 : Option TokenInformation
  v3_17 : Option TokenInformation
  defaultsUUID : Option String
  legacyUUID : Option String
  v3 : Option TokenInformation
  tryDeprecatedCaches : Bool
  deriving DecidableEq

-- Which calls to the keychain succeed.
structure KeychainCalls where
  readV4 : Bool
  writeV4 : Bool
  clearV4 : Bool
  readV3_21 : Bool
  clearV3_21 : Bool
  readV3_17 : Bool
  clearV3_17 : Bool
  deriving DecidableEq, Repr

def KeychainCalls.succeed : KeychainCalls := ⟨true, true, true, true, true, true, true⟩

namespace FBSDKAccessTokenCacheV4

def clearCache (c : TokenCache) (calls : KeychainCalls) : TokenCache :=
  { c with
    v4 := if calls.clearV4 then none else c.v4
    defaultsUUID := none }

def fetchAccessToken (c : TokenCache) (calls : KeychainCalls) :
    Option DatedAccessToken × TokenCache :=
  let dict := if calls.readV4 then c.v4 else none
  match dict.bind CachedToken.tokenUUID, dict.bind CachedToken.tokenEncoded with
  | some uuid, some token =>
    if c.defaultsUUID = some uuid then (some token, c) else (none, clearCache c calls)
  | _, _ => (none, clearCache c calls)

def cacheAccessToken (c : TokenCache) (token : Option DatedAccessToken) (UUID : String)
    (calls : KeychainCalls) : TokenCache :=
  match token with
  | none => clearCache c calls
  | some token =>
    let uuid := c.defaultsUUID.getD UUID
    { c with
      v4 := if calls.writeV4 then some ⟨some uuid, some token⟩ else c.v4
      defaultsUUID := some uuid }

end FBSDKAccessTokenCacheV4

namespace FBSDKAccessTokenCacheV3

def accessTokenForV3Dictionary (now : NSDate) (dictionary : Option TokenInformation) :
    Option DatedAccessToken :=
  dictionary.bind fun d => d.token.bind fun tokenString =>
    if tokenString = "" then none
    else if d.expirationDate.any (fun expirationDate => expirationDate < now) then none
    else some {
      tokenString := tokenString
      permissions := d.permissions.getD ∅
      declinedPermissions := d.declinedPermissions.getD ∅
      appID := d.appID
      userID := d.userFBID
      expirationDate := d.expirationDate.getD NSDate.distantFuture
      refreshDate := d.refreshDate.getD now }

def fetchAccessToken (c : TokenCache) (now : NSDate) : Option DatedAccessToken × TokenCache :=
  (accessTokenForV3Dictionary now c.v3, c)

def clearCache (c : TokenCache) : TokenCache := { c with v3 := none }

end FBSDKAccessTokenCacheV3

open FBSDKAccessTokenCacheV3 (accessTokenForV3Dictionary)

def TokenCache.sameUUID (c : TokenCache) (dictionary : Option TokenInformation) : Bool :=
  (dictionary.bind TokenInformation.UUID).any (fun uuid => c.legacyUUID = some uuid)

namespace FBSDKAccessTokenCacheV3_21

def clearCache (c : TokenCache) (calls : KeychainCalls) : TokenCache :=
  { c with v3_21 := if calls.clearV3_21 then none else c.v3_21 }

-- A token of another installation is cleared, and given all the same.
def fetchAccessToken (c : TokenCache) (now : NSDate) (calls : KeychainCalls) :
    Option DatedAccessToken × TokenCache :=
  let tokenDictionary := if calls.readV3_21 then c.v3_21 else none
  (accessTokenForV3Dictionary now tokenDictionary,
    if c.sameUUID tokenDictionary then c else clearCache c calls)

end FBSDKAccessTokenCacheV3_21

namespace FBSDKAccessTokenCacheV3_17

def clearCache (c : TokenCache) (calls : KeychainCalls) : TokenCache :=
  { c with v3_17 := if calls.clearV3_17 then none else c.v3_17 }

def fetchAccessToken (c : TokenCache) (now : NSDate) (calls : KeychainCalls) :
    Option DatedAccessToken × TokenCache :=
  let tokenDictionary := if calls.readV3_17 then c.v3_17 else none
  (accessTokenForV3Dictionary now tokenDictionary,
    if c.sameUUID tokenDictionary then c else clearCache c calls)

end FBSDKAccessTokenCacheV3_17

inductive DeprecatedCache
  | V3_21
  | V3_17
  | V3
  deriving DecidableEq, Repr

namespace DeprecatedCache

def fetchAccessToken (c : TokenCache) (now : NSDate) (calls : KeychainCalls) :
    DeprecatedCache → Option DatedAccessToken × TokenCache
  | .V3_21 => FBSDKAccessTokenCacheV3_21.fetchAccessToken c now calls
  | .V3_17 => FBSDKAccessTokenCacheV3_17.fetchAccessToken c now calls
  | .V3 => FBSDKAccessTokenCacheV3.fetchAccessToken c now

def clearCache (c : TokenCache) (calls : KeychainCalls) : DeprecatedCache → TokenCache
  | .V3_21 => FBSDKAccessTokenCacheV3_21.clearCache c calls
  | .V3_17 => FBSDKAccessTokenCacheV3_17.clearCache c calls
  | .V3 => FBSDKAccessTokenCacheV3.clearCache c

end DeprecatedCache

namespace FBSDKAccessTokenCache

def deprecatedCacheClasses : List DeprecatedCache := [.V3_21, .V3_17, .V3]

-- The loop over the earlier caches, which the first token ends.
def fetchOldToken (now : NSDate) (calls : KeychainCalls) :
    List DeprecatedCache → TokenCache → Option DatedAccessToken × TokenCache
  | [], c => (none, c)
  | cache :: rest, c =>
    match cache.fetchAccessToken c now calls with
    | (some oldToken, c) => (some oldToken, cache.clearCache c calls)
    | (none, c) => fetchOldToken now calls rest c

def cacheAccessToken (c : TokenCache) (token : Option DatedAccessToken) (UUID : String)
    (calls : KeychainCalls) : TokenCache :=
  let cached := FBSDKAccessTokenCacheV4.cacheAccessToken c token UUID calls
  if cached.tryDeprecatedCaches then
    deprecatedCacheClasses.foldl (fun c cache => cache.clearCache c calls)
      { cached with tryDeprecatedCaches := false }
  else cached

def fetchAccessToken (c : TokenCache) (now : NSDate) (UUID : String) (calls : KeychainCalls) :
    Option DatedAccessToken × TokenCache :=
  match FBSDKAccessTokenCacheV4.fetchAccessToken c calls with
  | (some token, c) => (some token, c)
  | (none, c) =>
    if c.tryDeprecatedCaches then
      match fetchOldToken now calls deprecatedCacheClasses { c with tryDeprecatedCaches := false } with
      | (some oldToken, c) => (some oldToken, cacheAccessToken c (some oldToken) UUID calls)
      | (none, c) => (none, c)
    else (none, c)

end FBSDKAccessTokenCache

-- A token is known by its address.
structure TokenObject where
  address : ℕ
  token : DatedAccessToken
  deriving DecidableEq

-- `UUIDs` have been made before, so no other is one of them.
structure AccessTokens where
  cache : TokenCache
  currentAccessToken : Option TokenObject
  clock : NSDate
  UUIDs : List String

namespace AccessTokens

variable (s : AccessTokens)

def current : Option DatedAccessToken := s.currentAccessToken.map TokenObject.token

def setCurrentAccessToken (token : Option TokenObject) (UUID : String) (calls : KeychainCalls) :
    AccessTokens :=
  if token.map TokenObject.address = s.currentAccessToken.map TokenObject.address then s
  else { s with
    currentAccessToken := token
    cache := FBSDKAccessTokenCache.cacheAccessToken s.cache (token.map TokenObject.token) UUID calls }

-- A new process; an app that is deleted and installed again keeps only its keychain.
def started (reinstalled : Bool) (now : NSDate) : AccessTokens :=
  { s with
    cache := { s.cache with
      defaultsUUID := if reinstalled then none else s.cache.defaultsUUID
      legacyUUID := if reinstalled then none else s.cache.legacyUUID
      v3 := if reinstalled then none else s.cache.v3
      tryDeprecatedCaches := true }
    currentAccessToken := none
    clock := now }

-- `fetching` is for the cached token to be read, `setting` for it to be made the current one.
def didFinishLaunching (now : NSDate) (UUID : String) (fetching setting : KeychainCalls) :
    AccessTokens :=
  let fetched := FBSDKAccessTokenCache.fetchAccessToken s.cache now UUID fetching
  { s with cache := fetched.2 }.setCurrentAccessToken (fetched.1.map (fun token => ⟨0, token⟩)) UUID
    setting

def launch (reinstalled : Bool) (now : NSDate) (UUID : String) (fetching setting : KeychainCalls) :
    AccessTokens :=
  (s.started reinstalled now).didFinishLaunching now UUID fetching setting

end AccessTokens

inductive TokenEvent
  | launch (reinstalled : Bool) (now : NSDate) (UUID : String) (fetching setting : KeychainCalls)
  | setCurrentAccessToken (token : Option TokenObject) (UUID : String) (calls : KeychainCalls)

namespace AccessTokens

def mint (s : AccessTokens) (UUID : String) : AccessTokens := { s with UUIDs := UUID :: s.UUIDs }

def step (s : AccessTokens) : TokenEvent → Option AccessTokens
  | .launch reinstalled now UUID fetching setting =>
    if s.clock ≤ now ∧ UUID ∉ s.UUIDs then
      some ((s.launch reinstalled now UUID fetching setting).mint UUID)
    else none
  | .setCurrentAccessToken token UUID calls =>
    if UUID ∉ s.UUIDs then some ((s.setCurrentAccessToken token UUID calls).mint UUID) else none

def machine : Machine AccessTokens TokenEvent := ⟨step⟩

-- The device as the app finds it; the stamps that are there have been made.
def found (cache : TokenCache) (clock : NSDate) : AccessTokens where
  cache := cache
  currentAccessToken := none
  clock := clock
  UUIDs := (cache.v4.bind CachedToken.tokenUUID).toList ++ cache.defaultsUUID.toList

end AccessTokens

end WhichStream.Facebook
