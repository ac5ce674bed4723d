import WhichStream.Firebase.FIRAuth
import WhichStream.Library.Labelled

/-!
The errors that FirebaseAuth makes of the answers of its service. A server error says what
went wrong in a message, a name with or without a detail, which becomes an error code.
-/

namespace WhichStream.Firebase

open LabelledMessages

def FIRAuthErrorCodeInvalidCustomToken : ErrorCode := 17000
def FIRAuthErrorCodeCustomTokenMismatch : ErrorCode := 17002
def FIRAuthErrorCodeInvalidCredential : ErrorCode := 17004
def FIRAuthErrorCodeOperationNotAllowed : ErrorCode := 17006
def FIRAuthErrorCodeEmailAlreadyInUse : ErrorCode := 17007
def FIRAuthErrorCodeInvalidEmail : ErrorCode := 17008
def FIRAuthErrorCodeTooManyRequests : ErrorCode := 17010
def FIRAuthErrorCodeRequiresRecentLogin : ErrorCode := 17014
def FIRAuthErrorCodeNetworkError : ErrorCode := 17020
def FIRAuthErrorCodeInvalidAPIKey : ErrorCode := 17023
def FIRAuthErrorCodeCredentialAlreadyInUse : ErrorCode := 17025
def FIRAuthErrorCodeAppNotAuthorized : ErrorCode := 17028
def FIRAuthErrorCodeExpiredActionCode : ErrorCode := 17029
def FIRAuthErrorCodeInvalidActionCode : ErrorCode := 17030
def FIRAuthErrorCodeInvalidMessagePayload : ErrorCode := 17031
def FIRAuthErrorCodeInvalidSender : ErrorCode := 17032
def FIRAuthErrorCodeInvalidRecipientEmail : ErrorCode := 17033
def FIRAuthErrorCodeMissingIosBundleID : ErrorCode := 17036
def FIRAuthErrorCodeMissingAndroidPackageName : ErrorCode := 17037
def FIRAuthErrorCodeUnauthorizedDomain : ErrorCode := 17038
def FIRAuthErrorCodeInvalidContinueURI : ErrorCode := 17039
def FIRAuthErrorCodeMissingContinueURI : ErrorCode := 17040
def FIRAuthErrorCodeInvalidPhoneNumber : ErrorCode := 17042
def FIRAuthErrorCodeInvalidVerificationCode : ErrorCode := 17044
def FIRAuthErrorCodeInvalidVerificationID : ErrorCode := 17046
def FIRAuthErrorCodeMissingAppCredential : ErrorCode := 17047
def FIRAuthErrorCodeInvalidAppCredential : ErrorCode := 17048
def FIRAuthErrorCodeSessionExpired : ErrorCode := 17051
def FIRAuthErrorCodeQuotaExceeded : ErrorCode := 17052
def FIRAuthErrorCodeMissingAppToken : ErrorCode := 17053
def FIRAuthErrorCodeAppNotVerified : ErrorCode := 17055
def FIRAuthErrorCodeCaptchaCheckFailed : ErrorCode := 17056
def FIRAuthErrorCodeInternalError : ErrorCode := 17999

-- What `NSJSONSerialization` makes of a text.
inductive JSON
  | null
  | bool (b : Bool)
  | number (n : ℚ)
  | string (s : String)
  | array (values : List JSON)
  | dictionary (entries : List (String × JSON))

abbrev NSDictionary := List (String × JSON)

namespace JSON

def string? : JSON → Option String
  | .string s => some s
  | _ => none

def array? : JSON → Option (List JSON)
  | .array values => some values
  | _ => none

def dictionary? : JSON → Option NSDictionary
  | .dictionary entries => some entries
  | _ => none

end JSON

inductive NSException
  | invalidArgument
  | unrecognizedSelector
  deriving DecidableEq, Repr

inductive ErrorDomain
  | FIRAuthErrorDomain
  | FIRAuthInternalErrorDomain
  | system
  deriving DecidableEq, Repr

structure UserInfo (ε : Type) where
  localizedDescription : Option String := none
  localizedFailureReason : Option String := none
  deserializedResponse : Option JSON := none
  underlyingError : Option ε := none

inductive NSError
  | mk (domain : ErrorDomain) (code : ErrorCode) (userInfo : UserInfo NSError)

def NSError.code : NSError → ErrorCode
  | .mk _ code _ => code

-- A code with the public flag is an error of the interface; the others stay inside.
inductive FIRAuthInternalErrorCode
  | flagged (code : ErrorCode)
  | RPCResponseDecodingError
  | UnexpectedErrorResponse
  | UnexpectedResponse
  deriving DecidableEq, Repr

namespace FIRAuthErrorUtils

def errorWithCode (code : FIRAuthInternalErrorCode) (userInfo : UserInfo NSError) : NSError :=
  match code with
  | .flagged code => .mk .FIRAuthErrorDomain code userInfo
  | .UnexpectedErrorResponse => wrapped 3
  | .UnexpectedResponse => wrapped 4
  | .RPCResponseDecodingError => wrapped 5
where
  wrapped (code : ErrorCode) : NSError := .mk .FIRAuthErrorDomain FIRAuthErrorCodeInternalError
    { underlyingError := some (.mk .FIRAuthInternalErrorDomain code userInfo) }

-- Without a message the description is the one that goes with the code.
def errorWithMessage (code : FIRAuthInternalErrorCode) (message : Option String) : NSError :=
  errorWithCode code
    { localizedDescription := message.filter (fun text => text ≠ "") }

def networkError (underlyingError : NSError) : NSError :=
  errorWithCode (.flagged FIRAuthErrorCodeNetworkError)
    { underlyingError := some underlyingError }

def unexpectedErrorResponseWithData (underlyingError : NSError) : NSError :=
  errorWithCode .UnexpectedErrorResponse
    { underlyingError := some underlyingError }

def unexpectedErrorResponse (deserializedResponse : JSON) : NSError :=
  errorWithCode .UnexpectedErrorResponse
    { deserializedResponse := some deserializedResponse }

def unexpectedResponseWithData (underlyingError : NSError) : NSError :=
  errorWithCode .UnexpectedResponse
    { underlyingError := some underlyingError }

def unexpectedResponse (deserializedResponse : JSON) : NSError :=
  errorWithCode .UnexpectedResponse
    { deserializedResponse := some deserializedResponse }

-- A dictionary literal takes no missing value.
def RPCResponseDecodingError (deserializedResponse : NSDictionary)
    (underlyingError : Option NSError) : Except NSException NSError :=
  match underlyingError with
  | none => .error .invalidArgument
  | some error => .ok (errorWithCode .RPCResponseDecodingError
      { deserializedResponse := some (.dictionary deserializedResponse)
        underlyingError := some error })

def weakPasswordError (reason : Option String) : Except NSException NSError :=
  match reason with
  | none => .error .invalidArgument
  | some reason => .ok (errorWithCode (.flagged FIRAuthErrorCodeWeakPassword)
      { localizedFailureReason := some reason })

def invalidAPIKeyError : NSError :=
  errorWithMessage (.flagged FIRAuthErrorCodeInvalidAPIKey) none

def appNotAuthorizedError : NSError :=
  errorWithMessage (.flagged FIRAuthErrorCodeAppNotAuthorized) none

end FIRAuthErrorUtils

-- What an error of the server is turned into: an error with the detail of its message, with
-- the message itself, with a text of its own, with the detail as its reason, or with nothing.
inductive ClientError
  | withDetail (code : ErrorCode)
  | withServerMessage (code : ErrorCode)
  | withMessage (code : ErrorCode) (message : String)
  | weakPassword
  | alone (code : ErrorCode)
  deriving DecidableEq, Repr

namespace ClientError

def code : ClientError → ErrorCode
  | .withDetail code => code
  | .withServerMessage code => code
  | .withMessage code _ => code
  | .weakPassword => FIRAuthErrorCodeWeakPassword
  | .alone code => code

def error (serverErrorMessage : String) (detail : Option String) :
    ClientError → Except NSException NSError
  | .withDetail code => .ok (FIRAuthErrorUtils.errorWithMessage (.flagged code) detail)
  | .withServerMessage code =>
    .ok (FIRAuthErrorUtils.errorWithMessage (.flagged code) (some serverErrorMessage))
  | .withMessage code message =>
    .ok (FIRAuthErrorUtils.errorWithMessage (.flagged code) (some message))
  | .weakPassword => FIRAuthErrorUtils.weakPasswordError detail
  | .alone code => .ok (FIRAuthErrorUtils.errorWithMessage (.flagged code) none)

theorem error_code {e : ClientError} {message : String} {detail : Option String} {err : NSError}
    (h : e.error message detail = .ok err) : err.code = e.code := by
  cases e with
  | weakPassword =>
    cases detail with
    | none => cases h
    | some reason =>
      cases h
      rfl
  | _ =>
    cases h
    rfl

theorem error_raises {e : ClientError} {message : String} {detail : Option String}
    {x : NSException} :
    e.error message detail = .error x ↔ e = .weakPassword ∧ detail = none ∧ x = .invalidArgument := by
  cases e with
  | weakPassword =>
    cases detail with
    | none => simp [error, FIRAuthErrorUtils.weakPasswordError, eq_comm]
    | some reason => simp [error, FIRAuthErrorUtils.weakPasswordError]
  | _ => simp [error]

end ClientError

namespace FIRAuthBackend

-- The messages that `clientErrorWithServerErrorMessage` compares with, in its order.
def serverErrors : List (String × ClientError) := [
  ("USER_NOT_FOUND", .withDetail FIRAuthErrorCodeUserNotFound),
  ("EMAIL_NOT_FOUND", .withDetail FIRAuthErrorCodeUserNotFound),
  ("INVALID_LOCAL_ID", .withDetail FIRAuthErrorCodeUserNotFound),
  ("TOKEN_EXPIRED", .withDetail FIRAuthErrorCodeUserTokenExpired),
  ("TOO_MANY_ATTEMPTS_TRY_LATER", .withDetail FIRAuthErrorCodeTooManyRequests),
  ("INVALID_CUSTOM_TOKEN", .withDetail FIRAuthErrorCodeInvalidCustomToken),
  ("CREDENTIAL_MISMATCH", .withDetail FIRAuthErrorCodeCustomTokenMismatch),
  ("INVALID_IDP_RESPONSE", .withDetail FIRAuthErrorCodeInvalidCredential),
  ("USER_DISABLED", .withDetail FIRAuthErrorCodeUserDisabled),
  ("OPERATION_NOT_ALLOWED", .withDetail FIRAuthErrorCodeOperationNotAllowed),
  ("PASSWORD_LOGIN_DISABLED", .withDetail FIRAuthErrorCodeOperationNotAllowed),
  ("EMAIL_EXISTS", .alone FIRAuthErrorCodeEmailAlreadyInUse),
  ("INVALID_EMAIL", .withDetail FIRAuthErrorCodeInvalidEmail),
  ("INVALID_IDENTIFIER", .withDetail FIRAuthErrorCodeInvalidEmail),
  ("INVALID_PASSWORD", .withDetail FIRAuthErrorCodeWrongPassword),
  ("CREDENTIAL_TOO_OLD_LOGIN_AGAIN", .withDetail FIRAuthErrorCodeRequiresRecentLogin),
  ("INVALID_ID_TOKEN", .withDetail FIRAuthErrorCodeInvalidUserToken),
  ("FEDERATED_USER_ID_ALREADY_LINKED", .withDetail FIRAuthErrorCodeCredentialAlreadyInUse),
  ("WEAK_PASSWORD", .weakPassword),
  ("EXPIRED_OOB_CODE", .withDetail FIRAuthErrorCodeExpiredActionCode),
  ("INVALID_OOB_CODE", .withDetail FIRAuthErrorCodeInvalidActionCode),
  ("MISSING_EMAIL", .withDetail FIRAuthErrorCodeMissingEmail),
  ("INVALID_SENDER", .withDetail FIRAuthErrorCodeInvalidSender),
  ("INVALID_MESSAGE_PAYLOAD", .withDetail FIRAuthErrorCodeInvalidMessagePayload),
  ("INVALID_RECIPIENT_EMAIL", .withDetail FIRAuthErrorCodeInvalidRecipientEmail),
  ("MISSING_IOS_BUNDLE_ID", .withDetail FIRAuthErrorCodeMissingIosBundleID),
  ("MISSING_ANDROID_PACKAGE_NAME", .withDetail FIRAuthErrorCodeMissingAndroidPackageName),
  ("UNAUTHORIZED_DOMAIN", .withDetail FIRAuthErrorCodeUnauthorizedDomain),
  ("INVALID_CONTINUE_URI", .withDetail FIRAuthErrorCodeInvalidContinueURI),
  ("MISSING_CONTINUE_URI", .withDetail FIRAuthErrorCodeMissingContinueURI),
  ("INVALID_PHONE_NUMBER", .withDetail FIRAuthErrorCodeInvalidPhoneNumber),
  ("INVALID_SESSION_INFO", .withDetail FIRAuthErrorCodeInvalidVerificationID),
  ("INVALID_CODE", .withDetail FIRAuthErrorCodeInvalidVerificationCode),
  ("SESSION_EXPIRED", .withDetail FIRAuthErrorCodeSessionExpired),
  ("MISSING_IOS_APP_TOKEN", .alone FIRAuthErrorCodeMissingAppToken),
  ("MISSING_APP_CREDENTIAL", .withDetail FIRAuthErrorCodeMissingAppCredential),
  ("INVALID_APP_CREDENTIAL", .withDetail FIRAuthErrorCodeInvalidAppCredential),
  ("QUOTA_EXCEEDED", .withServerMessage FIRAuthErrorCodeQuotaExceeded),
  ("APP_NOT_VERIFIED", .withServerMessage FIRAuthErrorCodeAppNotVerified),
  ("MISSING_CLIENT_IDENTIFIER", .withMessage FIRAuthErrorCodeAppNotVerified
    "Missing app verification via reCAPTCHA or APNS token. Please verify that appVerificationDisabledForTesting is not enabled when testing with a phone number that is not marked as a test Phone number in the app console."),
  ("CAPTCHA_CHECK_FAILED", .withServerMessage FIRAuthErrorCodeCaptchaCheckFailed)]

def whitespaceCharacterSet (c : Char) : Bool :=
  c = ' ' || c = '\t' || c = '\u00A0' || c = '\u1680' || '\u2000' ≤ c && c ≤ '\u200A' ||
    c = '\u202F' || c = '\u205F' || c = '\u3000'

-- The short message and the detail.
def shortErrorMessage (serverErrorMessage : String) : String × Option String :=
  let parts := split whitespaceCharacterSet ':' serverErrorMessage.toList
  (.ofList parts.1, parts.2.map .ofList)

def Says (serverErrorMessage message : String) : Prop :=
  LabelledMessages.Says whitespaceCharacterSet ':' serverErrorMessage.toList message.toList

theorem lookup_eq_some_iff_mem {κ β : Type*} [DecidableEq κ] {entries : List (κ × β)}
    (h : (entries.map Prod.fst).Nodup) {key : κ} {b : β} :
    entries.lookup key = some b ↔ (key, b) ∈ entries := by
  induction entries with
  | nil => simp
  | cons entry entries ih =>
    obtain ⟨k, c⟩ := entry
    rw [List.map_cons, List.nodup_cons] at h
    by_cases hk : key = k
    · subst hk
      have hout : (key, b) ∉ entries := fun hb => h.1 (List.mem_map.mpr ⟨_, hb, rfl⟩)
      simp [hout, eq_comm]
    · rw [List.lookup_cons, beq_eq_false_iff_ne.mpr hk]
      simpa [hk] using ih h.2

theorem serverErrors_nodup : (serverErrors.map Prod.fst).Nodup := by
  simp [serverErrors]

def messageCharacter (c : Char) : Bool := 'A' ≤ c && c ≤ 'Z' || c = '_'

theorem messageCharacter_kept {c : Char} (h : messageCharacter c = true) :
    whitespaceCharacterSet c = false ∧ c ≠ ':' := by
  simp only [messageCharacter, Bool.or_eq_true, Bool.and_eq_true, decide_eq_true_eq, Char.le_def,
    UInt32.le_iff_toNat_le] at h
  obtain ⟨hA, hZ⟩ | rfl := h
  · simp only [whitespaceCharacterSet, Char.le_def, UInt32.le_iff_toNat_le, Char.ext_iff,
      ← UInt32.toNat_inj, Bool.or_eq_false_iff, Bool.and_eq_false_iff, decide_eq_false_iff_not, ne_eq]
    simp at *
    omega
  · decide

theorem serverErrors_characters : ∀ entry ∈ serverErrors, ∃ message, entry.1 = String.ofList message ∧
    message ≠ [] ∧ message.all messageCharacter = true := by
  simp only [serverErrors, List.forall_mem_cons]
  repeat' apply And.intro
  all_goals first | exact ⟨_, rfl, by decide, by decide⟩ | simp

theorem serverErrors_labels : ∀ entry ∈ serverErrors,
    Trimmed whitespaceCharacterSet entry.1.toList ∧ entry.1.toList ≠ [] ∧ ':' ∉ entry.1.toList := by
  intro entry hentry
  obtain ⟨message, heq, hne, hall⟩ := serverErrors_characters entry hentry
  rw [heq, String.toList_ofList]
  have hkept : ∀ c ∈ message, whitespaceCharacterSet c = false ∧ c ≠ ':' := by
    intro c hc
    apply messageCharacter_kept
    exact List.all_eq_true.mp hall c hc
  refine ⟨⟨?_, ?_⟩, hne, fun hc => (hkept ':' hc).2 rfl⟩
  · intro c hc
    exact (hkept c (List.mem_of_mem_head? hc)).1
  · intro c hc
    exact (hkept c (List.mem_of_mem_getLast? hc)).1

-- The messages about a token that is no longer good.
def revokingMessages : List String :=
  ["USER_NOT_FOUND", "EMAIL_NOT_FOUND", "INVALID_LOCAL_ID", "TOKEN_EXPIRED", "USER_DISABLED",
    "INVALID_ID_TOKEN"]

theorem revokingMessages_eq : (serverErrors.filter (fun entry => invalidatesToken entry.2.code)).map
    Prod.fst = revokingMessages := rfl

theorem mem_revokingMessages {message : String} : message ∈ revokingMessages ↔
    ∃ e, (message, e) ∈ serverErrors ∧ invalidatesToken e.code = true := by
  rw [← revokingMessages_eq]
  simp

theorem shortErrorMessage_iff {serverErrorMessage message : String} {e : ClientError}
    (h : (message, e) ∈ serverErrors) :
    (shortErrorMessage serverErrorMessage).1 = message ↔ Says serverErrorMessage message := by
  obtain ⟨htrimmed, hne, hsep⟩ := serverErrors_labels _ h
  unfold Says
  rw [← split_label_iff (by decide) htrimmed hne hsep]
  constructor
  · intro he
    rw [← he]
    exact (String.toList_ofList ..).symm
  · intro he
    rw [shortErrorMessage, he]
    exact String.ofList_toList ..

end FIRAuthBackend

end WhichStream.Firebase
