import WhichStream.Firebase.TokenService
import WhichStream.Library.KeyedArchive

/-!
The user of FirebaseAuth: what a look-up of the account fills in, and the archive that
the keychain keeps of it.
-/

namespace WhichStream.Firebase

open KeyedArchives

structure FIRUserInfoImpl where
  providerID : Option String
  userID : Option String
  displayName : Option String
  photoURL : Option NSURL
  email : Option String
  phoneNumber : Option String
  deriving DecidableEq, Repr

namespace FIRUserInfoImpl

def encodeWithCoder (info : FIRUserInfoImpl) : Archive :=
  Archive.encodeObject [] info.providerID "providerID"
    |>.encodeObject info.userID "userID"
    |>.encodeObject info.displayName "displayName"
    |>.encodeObject info.photoURL "photoURL"
    |>.encodeObject info.email "email"
    |>.encodeObject info.phoneNumber "phoneNumber"

def initWithCoder (a : Archive) : FIRUserInfoImpl where
  providerID := a.decodeObject "providerID"
  userID := a.decodeObject "userID"
  displayName := a.decodeObject "displayName"
  photoURL := a.decodeObject "photoURL"
  email := a.decodeObject "email"
  phoneNumber := a.decodeObject "phoneNumber"

theorem initWithCoder_encodeWithCoder (info : FIRUserInfoImpl) :
    initWithCoder info.encodeWithCoder = info := by
  simp [initWithCoder, encodeWithCoder]

instance : Codable FIRUserInfoImpl where
  encode info := .object info.encodeWithCoder
  decode
    | .object fields => some (initWithCoder fields)
    | _ => none
  decode_encode info := congrArg some info.initWithCoder_encodeWithCoder
  decode_null := rfl

end FIRUserInfoImpl

structure FIRUserMetadata where
  creationDate : Option NSDate
  lastSignInDate : Option NSDate
  deriving DecidableEq, Repr

namespace FIRUserMetadata

def encodeWithCoder (metadata : FIRUserMetadata) : Archive :=
  Archive.encodeObject [] metadata.creationDate "creationDate"
    |>.encodeObject metadata.lastSignInDate "lastSignInDate"

def initWithCoder (a : Archive) : FIRUserMetadata where
  creationDate := a.decodeObject "creationDate"
  lastSignInDate := a.decodeObject "lastSignInDate"

theorem initWithCoder_encodeWithCoder (metadata : FIRUserMetadata) :
    initWithCoder metadata.encodeWithCoder = metadata := by
  simp [initWithCoder, encodeWithCoder]

instance : Codable FIRUserMetadata where
  encode metadata := .object metadata.encodeWithCoder
  decode
    | .object fields => some (initWithCoder fields)
    | _ => none
  decode_encode metadata := congrArg some metadata.initWithCoder_encodeWithCoder
  decode_null := rfl

end FIRUserMetadata

namespace FIRSecureTokenService

variable {γ : Type*}

-- Neither the queue nor the authorization code is kept.
def encodeWithCoder (s : FIRSecureTokenService γ) : Archive :=
  Archive.encodeObject [] s.refreshToken "refreshToken"
    |>.encodeObject s.accessToken "accessToken"
    |>.encodeObject s.accessTokenExpirationDate "accessTokenExpirationDate"

def initWithCoder (a : Archive) : Option (FIRSecureTokenService γ) :=
  match a.decodeObject "refreshToken" with
  | none => none
  | some (refreshToken : String) => some (initWithTokens (a.decodeObject "accessToken")
      (a.decodeObject "accessTokenExpirationDate") (some refreshToken))

def restored (s : FIRSecureTokenService γ) : FIRSecureTokenService γ :=
  initWithTokens s.accessToken s.accessTokenExpirationDate s.refreshToken

theorem initWithCoder_encodeWithCoder (s : FIRSecureTokenService γ) :
    initWithCoder s.encodeWithCoder =
      if s.refreshToken.isSome then some s.restored else none := by
  unfold initWithCoder
  have hrefresh : s.encodeWithCoder.decodeObject "refreshToken" = s.refreshToken := by
    simp [encodeWithCoder]
  rw [hrefresh]
  cases h : s.refreshToken with
  | none => rfl
  | some token => simp [encodeWithCoder, restored, h]

theorem encodeWithCoder_congr {s s' : FIRSecureTokenService γ} (h : s'.tokens = s.tokens) :
    s'.encodeWithCoder = s.encodeWithCoder := by
  simp only [tokens, Prod.mk.injEq] at h
  rw [encodeWithCoder, encodeWithCoder, h.1, h.2.1, h.2.2]

end FIRSecureTokenService

structure GetAccountInfoResponseProviderUserInfo where
  providerID : String
  displayName : Option String
  photoURL : Option NSURL
  federatedID : Option String
  email : Option String
  phoneNumber : Option String
  deriving DecidableEq, Repr

structure GetAccountInfoResponseUser where
  localID : Option String
  displayName : Option String
  email : Option String
  photoURL : Option NSURL
  creationDate : Option NSDate
  lastLoginDate : Option NSDate
  emailVerified : Bool
  passwordHash : Option String
  phoneNumber : Option String
  providerUserInfo : List GetAccountInfoResponseProviderUserInfo
  deriving DecidableEq, Repr

structure FIRUser (γ : Type*) where
  userID : Option String
  anonymous : Bool
  hasEmailPasswordCredential : Bool
  providerData : Option (List (String × FIRUserInfoImpl))
  email : Option String
  phoneNumber : Option String
  emailVerified : Bool
  photoURL : Option NSURL
  displayName : Option String
  metadata : Option FIRUserMetadata
  tokenService : FIRSecureTokenService γ

namespace FIRUserInfoImpl

def userInfo (p : GetAccountInfoResponseProviderUserInfo) : FIRUserInfoImpl :=
  ⟨some p.providerID, p.federatedID, p.displayName, p.photoURL, p.email, p.phoneNumber⟩

end FIRUserInfoImpl

namespace FIRUser

variable {γ : Type*} (u : FIRUser γ)

def initWithTokenService (tokenService : FIRSecureTokenService γ) : FIRUser γ :=
  ⟨none, false, false, some [], none, none, false, none, none, none, tokenService⟩

-- The last of several infos of one provider counts.
def setProvider (providerData : List (String × FIRUserInfoImpl))
    (p : GetAccountInfoResponseProviderUserInfo) : List (String × FIRUserInfoImpl) :=
  (p.providerID, FIRUserInfoImpl.userInfo p) ::
    providerData.filter (fun entry => entry.1 != p.providerID)

def updateWithGetAccountInfoResponse (user : GetAccountInfoResponseUser) : FIRUser γ :=
  { u with
    userID := user.localID
    email := user.email
    emailVerified := user.emailVerified
    displayName := user.displayName
    photoURL := user.photoURL
    phoneNumber := user.phoneNumber
    hasEmailPasswordCredential := user.passwordHash.any (fun hash => hash != "")
    metadata := some ⟨user.creationDate, user.lastLoginDate⟩
    providerData := some (user.providerUserInfo.foldl setProvider []) }

def encodeWithCoder : Archive :=
  Archive.encodeObject [] u.userID "userID"
    |>.encodeBool u.anonymous "anonymous"
    |>.encodeBool u.hasEmailPasswordCredential "hasEmailPassword"
    |>.encodeObject u.providerData "providerData"
    |>.encodeObject u.email "email"
    |>.encodeObject u.phoneNumber "phoneNumber"
    |>.encodeBool u.emailVerified "emailVerified"
    |>.encodeObject u.photoURL "photoURL"
    |>.encodeObject u.displayName "displayName"
    |>.encodeObject u.metadata "metadata"
    |>.encodeObject (some u.tokenService.encodeWithCoder) "tokenService"

def noProviders (providerData : Option (List (String × FIRUserInfoImpl))) : Bool :=
  providerData.all List.isEmpty

-- Earlier versions did not write the anonymous bit, which is then deduced.
def decodeAnonymous (a : Archive) : Bool :=
  if a.containsValueForKey "anonymous" then a.decodeBool "anonymous"
  else !a.decodeBool "hasEmailPassword" && noProviders (a.decodeObject "providerData")

def initWithCoder (a : Archive) : Option (FIRUser γ) :=
  match (a.decodeObject "userID" : Option String),
    (a.decodeObject "tokenService" : Option Archive).bind FIRSecureTokenService.initWithCoder with
  | some userID, some tokenService => some {
      userID := some userID
      anonymous := decodeAnonymous a
      hasEmailPasswordCredential := a.decodeBool "hasEmailPassword"
      providerData := a.decodeObject "providerData"
      email := a.decodeObject "email"
      phoneNumber := a.decodeObject "phoneNumber"
      emailVerified := a.decodeBool "emailVerified"
      photoURL := a.decodeObject "photoURL"
      displayName := a.decodeObject "displayName"
      metadata := some ((a.decodeObject "metadata").getD ⟨none, none⟩)
      tokenService := tokenService }
  | _, _ => none

def restored : FIRUser γ :=
  { u with
    metadata := some (u.metadata.getD ⟨none, none⟩)
    tokenService := u.tokenService.restored }

def restorable : Bool := u.userID.isSome && u.tokenService.refreshToken.isSome

theorem initWithCoder_some {a : Archive} {u : FIRUser γ} (h : initWithCoder a = some u) :
    u.tokenService.callbacks = [] ∧ u.restorable = true := by
  unfold initWithCoder at h
  split at h
  · next tokenService htokens =>
    obtain rfl := Option.some.inj h
    obtain ⟨fields, -, hfields⟩ := Option.bind_eq_some_iff.mp htokens
    unfold FIRSecureTokenService.initWithCoder at hfields
    split at hfields
    · cases hfields
    · obtain rfl := Option.some.inj hfields
      exact ⟨rfl, rfl⟩
  · cases h

theorem decode_tokenService :
    ((u.encodeWithCoder.decodeObject "tokenService" : Option Archive).bind
      FIRSecureTokenService.initWithCoder : Option (FIRSecureTokenService γ)) =
        if u.tokenService.refreshToken.isSome then some u.tokenService.restored else none := by
  rw [← FIRSecureTokenService.initWithCoder_encodeWithCoder]
  simp [encodeWithCoder]

/-- An archive gives back the user it was made of, up to the work in progress, exactly when
the user has an identifier and a refresh token; otherwise it gives no user. -/
theorem archive_round_trip : (initWithCoder u.encodeWithCoder : Option (FIRUser γ)) =
    if u.restorable then some u.restored else none := by
  unfold initWithCoder
  rw [decode_tokenService]
  have huid : (u.encodeWithCoder.decodeObject "userID" : Option String) = u.userID := by
    simp [encodeWithCoder]
  rw [huid]
  unfold restorable
  cases hid : u.userID with
  | none => simp
  | some userID =>
    cases htoken : u.tokenService.refreshToken with
    | none => simp
    | some token => simp [encodeWithCoder, decodeAnonymous, restored, hid]

theorem earlier_archive : (initWithCoder (u.encodeWithCoder.without "anonymous") : Option (FIRUser γ)) =
    if u.restorable then some { u.restored with
      anonymous := !u.hasEmailPasswordCredential && noProviders u.providerData } else none := by
  unfold initWithCoder
  have htokens : ((u.encodeWithCoder.without "anonymous").decodeObject "tokenService" : Option Archive) =
      u.encodeWithCoder.decodeObject "tokenService" := by simp
  have huid : ((u.encodeWithCoder.without "anonymous").decodeObject "userID" : Option String) =
      u.userID := by
    simp [encodeWithCoder]
  rw [htokens, huid, decode_tokenService]
  unfold restorable
  cases hid : u.userID with
  | none => simp
  | some userID =>
    cases htoken : u.tokenService.refreshToken with
    | none => simp
    | some token => simp [encodeWithCoder, decodeAnonymous, restored, hid]

/-- An archive of an earlier version reads as the user it was made of exactly when the user
was anonymous just if it had neither a password nor a provider. -/
theorem earlier_archive_exact :
    (initWithCoder (u.encodeWithCoder.without "anonymous") : Option (FIRUser γ)) = some u.restored ↔
      u.restorable = true ∧ (u.anonymous = true ↔
        u.hasEmailPasswordCredential = false ∧ noProviders u.providerData = true) := by
  rw [earlier_archive]
  split_ifs with hr
  · have hanonymous : u.restored.anonymous = u.anonymous := rfl
    rw [Option.some.injEq]
    constructor
    · intro h
      have hbit := congrArg anonymous h
      dsimp only at hbit
      rw [hanonymous] at hbit
      refine ⟨hr, ?_⟩
      rw [← hbit]
      simp
    · rintro ⟨-, hbit⟩
      have hdeduced : (!u.hasEmailPasswordCredential && noProviders u.providerData) = u.anonymous := by
        rw [Bool.eq_iff_iff, hbit]
        simp
      rw [hdeduced, ← hanonymous]
  · simp [hr]

/-- Once restored, a user archives to what it was read from. -/
theorem restored_encode (h : u.metadata.isSome) : u.restored.encodeWithCoder = u.encodeWithCoder := by
  obtain ⟨metadata, hm⟩ := Option.isSome_iff_exists.mp h
  have htokens : u.tokenService.restored.encodeWithCoder = u.tokenService.encodeWithCoder :=
    FIRSecureTokenService.encodeWithCoder_congr rfl
  simp [restored, encodeWithCoder, htokens, hm]

end FIRUser

end WhichStream.Firebase
