import WhichStream.Firebase.CurrentUser
import WhichStream.Firebase.Profiles
import WhichStream.Firebase.Responses

/-!
FirebaseAuth run by the answers of its service as they come in: a user is signed out, and
counts as verified, only because of what an answer says.
-/

namespace WhichStream.Firebase

open EventMachine KeyedArchives FIRAuthBackend

inductive WireEvent
  | call (call : Call) (email password : Text)
  | sendEmailVerification (ref : Ref)
  | signOut (f : SaveFaults)
  | tokens (call : Call) (k : ℕ) (answer : HTTPAnswer) (now : NSDate)
  | runTask (ref : Ref) (now : NSDate)
  | secureToken (ref : Ref) (answer : HTTPAnswer) (now : NSDate) (f : SaveFaults)
  | getAccountInfo (call : Call) (k : ℕ) (ref : Ref) (answer : HTTPAnswer) (f : SaveFaults)
  | getOOBConfirmationCode (m : ℕ) (ref : Ref) (answer : HTTPAnswer) (f : SaveFaults)
  | main

namespace WireEvent

variable (F : Foundation)

def posted {β : Type} (setWithDictionary : NSDictionary → Except NSException (Except (Option NSError) β))
    (answer : HTTPAnswer) : Except NSException (Except ErrorCode β) :=
  (postCompletion setWithDictionary answer).map (Except.mapError NSError.code)

-- What the callback of the request is called with.
def received : WireEvent → Except NSException FIRAuthEvent
  | .call c email password => .ok (.call c email password)
  | .sendEmailVerification ref => .ok (.sendEmailVerification ref)
  | .signOut f => .ok (.signOut f)
  | .tokens c k answer now =>
    (posted (IssuedTokens.setWithDictionary F now) answer).map (fun result => .tokens c k result)
  | .runTask ref now => .ok (.runTask ref now)
  | .secureToken ref answer now f =>
    (posted (SecureTokenResponse.setWithDictionary F now) answer).map
      (fun result => .requestCompleted ref result f)
  | .getAccountInfo c k ref answer f =>
    (posted (GetAccountInfoResponseUser.setWithDictionary F) answer).map
      (fun result => .gotAccountInfo c k ref result f)
  | .getOOBConfirmationCode m ref answer f =>
    (posted OOBConfirmationCode.setWithDictionary answer).map (fun result =>
      .gotOOBConfirmationCode m ref (match result with
        | .error e => some e
        | .ok _ => none) f)
  | .main => .ok .main

end WireEvent

-- The answer says that the token is no longer good.
def HTTPAnswer.Revokes (answer : HTTPAnswer) : Prop :=
  ∃ message ∈ revokingMessages, answer.Says message

section Posted

variable {β : Type} {setWithDictionary : NSDictionary → Except NSException (Except (Option NSError) β)}
  {answer : HTTPAnswer}

def Succeeds (setWithDictionary : NSDictionary → Except NSException (Except (Option NSError) β))
    (answer : HTTPAnswer) : Prop :=
  ∃ dictionary response, answer.response = some dictionary ∧
    setWithDictionary dictionary = .ok (.ok response)

theorem posted_cases {result : Except ErrorCode β}
    (h : WireEvent.posted setWithDictionary answer = .ok result) :
    (∃ error, result = .error (NSError.code error) ∧
        postCompletion setWithDictionary answer = .ok (.error error)) ∨
      ∃ response, result = .ok response ∧
        postCompletion setWithDictionary answer = .ok (.ok response) := by
  unfold WireEvent.posted at h
  cases hpost : postCompletion setWithDictionary answer with
  | error x =>
    rw [hpost] at h
    cases h
  | ok called =>
    rw [hpost] at h
    cases called with
    | error error =>
      cases h
      exact Or.inl ⟨error, rfl, rfl⟩
    | ok response =>
      cases h
      exact Or.inr ⟨response, rfl, rfl⟩

theorem revokes_of_error {error : NSError}
    (h : postCompletion setWithDictionary answer = .ok (.error error)) :
    invalidatesToken error.code = true ↔ answer.Revokes := by
  rw [HTTPAnswer.Revokes, ← @revokes_iff _ setWithDictionary, h]
  simp

theorem not_revokes_of_ok {response : β}
    (h : postCompletion setWithDictionary answer = .ok (.ok response)) : ¬answer.Revokes := by
  rw [HTTPAnswer.Revokes, ← @revokes_iff _ setWithDictionary, h]
  simp

theorem succeeds_iff : Succeeds setWithDictionary answer ↔
    ∃ response, postCompletion setWithDictionary answer = .ok (.ok response) := by
  simp only [postCompletion_ok]
  exact exists_comm

theorem not_succeeds_of_error {error : NSError}
    (h : postCompletion setWithDictionary answer = .ok (.error error)) :
    ¬Succeeds setWithDictionary answer := by
  simp [succeeds_iff, h]

theorem succeeds_of_ok {response : β}
    (h : postCompletion setWithDictionary answer = .ok (.ok response)) :
    Succeeds setWithDictionary answer := succeeds_iff.mpr ⟨response, h⟩

end Posted

namespace FIRAuth

-- An exception ends the process.
def wire (F : Foundation) : Machine FIRAuth WireEvent :=
  machine.reading (fun e => (WireEvent.received F e).toOption)

variable (F : Foundation) {a b : FIRAuth} {e : WireEvent}

theorem wire_step : (wire F).step a e = some b ↔
    ∃ event, WireEvent.received F e = .ok event ∧ machine.step a event = some b := by
  rw [wire, Machine.reading_step]
  refine exists_congr (fun event => and_congr_left' ?_)
  cases WireEvent.received F e <;> simp [Except.toOption]

def RevokedBy (auth : FIRAuth) (ref : Ref) (answer : HTTPAnswer) : Prop :=
  auth.currentUser ≠ none ∧ auth.sameUserID ref = true ∧ answer.Revokes

/-- The events on which the current user changes, told by the answers of the service. -/
def ChangesOnWire (auth : FIRAuth) : WireEvent → Prop
  | .signOut f => auth.currentUser ≠ none ∧ f.save = none
  | .secureToken ref answer now f => auth.RevokedBy ref answer ∨
    ¬Succeeds (SecureTokenResponse.setWithDictionary F now) answer ∧
      ∃ c rest, (auth.users ref).tokenService.callbacks = c :: rest ∧ auth.Clears c f
  | .getAccountInfo call k _ answer f =>
    Succeeds (GetAccountInfoResponseUser.setWithDictionary F) answer ∧ f.save = none ∨
      ¬Succeeds (GetAccountInfoResponseUser.setWithDictionary F) answer ∧ auth.Clears (.auth call k) f
  | .getOOBConfirmationCode _ ref answer _ => auth.RevokedBy ref answer
  | _ => False

theorem revokes_revokedBy {β : Type} {ref : Ref} {answer : HTTPAnswer} {error : NSError}
    {setWithDictionary : NSDictionary → Except NSException (Except (Option NSError) β)}
    (h : postCompletion setWithDictionary answer = .ok (.error error)) :
    a.Revokes ref (some error.code) ↔ a.RevokedBy ref answer := by
  rw [RevokedBy, ← revokes_of_error h, Revokes, Option.any_some, and_comm (a := invalidatesToken _ = _)]

theorem received_of_map {β γ : Type} {x : Except NSException β} {g : β → γ} {y : γ}
    (h : x.map g = .ok y) : ∃ result, x = .ok result ∧ y = g result := by
  cases x with
  | error x => cases h
  | ok result =>
    cases h
    exact ⟨result, rfl, rfl⟩

theorem secureToken_changes {ref : Ref} {answer : HTTPAnswer} {now : NSDate} {f : SaveFaults}
    {result : Except ErrorCode SecureTokenResponse}
    (h : WireEvent.posted (SecureTokenResponse.setWithDictionary F now) answer = .ok result) :
    a.Changes (.requestCompleted ref result f) ↔
      a.ChangesOnWire F (.secureToken ref answer now f) := by
  obtain ⟨error, rfl, hpost⟩ | ⟨response, rfl, hpost⟩ := posted_cases h
  · simp only [Changes, ChangesOnWire]
    rw [revokes_revokedBy hpost, and_iff_right (not_succeeds_of_error hpost)]
  · have hkept : ¬a.RevokedBy ref answer := fun hr => not_revokes_of_ok hpost hr.2.2
    simp only [Changes, ChangesOnWire]
    simp [hkept, succeeds_of_ok hpost]

theorem getAccountInfo_changes {call : Call} {k : ℕ} {ref : Ref} {answer : HTTPAnswer}
    {f : SaveFaults} {result : Except ErrorCode GetAccountInfoResponseUser}
    (h : WireEvent.posted (GetAccountInfoResponseUser.setWithDictionary F) answer = .ok result) :
    a.Changes (.gotAccountInfo call k ref result f) ↔
      a.ChangesOnWire F (.getAccountInfo call k ref answer f) := by
  obtain ⟨error, rfl, hpost⟩ | ⟨account, rfl, hpost⟩ := posted_cases h
  · simp only [Changes, ChangesOnWire]
    simp [not_succeeds_of_error hpost]
  · simp only [Changes, ChangesOnWire]
    simp [succeeds_of_ok hpost]

theorem changesOnWire_iff {event : FIRAuthEvent} (h : WireEvent.received F e = .ok event) :
    a.Changes event ↔ a.ChangesOnWire F e := by
  cases e with
  | tokens call k answer now =>
    obtain ⟨result, -, rfl⟩ := received_of_map h
    exact Iff.rfl
  | secureToken ref answer now f =>
    obtain ⟨result, hposted, rfl⟩ := received_of_map h
    exact secureToken_changes F hposted
  | getAccountInfo call k ref answer f =>
    obtain ⟨result, hposted, rfl⟩ := received_of_map h
    exact getAccountInfo_changes F hposted
  | getOOBConfirmationCode m ref answer f =>
    obtain ⟨result, hposted, rfl⟩ := received_of_map h
    obtain ⟨error, rfl, hpost⟩ | ⟨code, rfl, hpost⟩ := posted_cases hposted
    · exact revokes_revokedBy hpost
    · refine iff_of_false ?_ (fun hr => not_revokes_of_ok hpost hr.2.2)
      rintro ⟨-, hinvalid, -⟩
      cases hinvalid
  | _ =>
    cases h
    exact Iff.rfl

-- The account that an answer to a look-up of `ref` tells of.
def told (ref : Ref) : WireEvent → Option GetAccountInfoResponseUser
  | .getAccountInfo _ _ other answer _ =>
    if other = ref then
      answer.response.bind fun dictionary =>
        match GetAccountInfoResponseUser.setWithDictionary F dictionary with
        | .ok (.ok account) => some account
        | _ => none
    else none
  | _ => none

theorem told_getAccountInfo {call : Call} {k : ℕ} {ref other : Ref} {answer : HTTPAnswer}
    {f : SaveFaults} {result : Except ErrorCode GetAccountInfoResponseUser}
    (h : WireEvent.posted (GetAccountInfoResponseUser.setWithDictionary F) answer = .ok result) :
    FIRAuthEvent.account ref (.gotAccountInfo call k other result f) =
      told F ref (.getAccountInfo call k other answer f) := by
  obtain ⟨error, rfl, hpost⟩ | ⟨account, rfl, hpost⟩ := posted_cases h
  · have hnot := not_succeeds_of_error hpost
    simp only [FIRAuthEvent.account, told]
    split_ifs
    · symm
      rw [Option.bind_eq_none_iff]
      intro dictionary hresponse
      split
      · next account haccount => exact absurd ⟨dictionary, account, hresponse, haccount⟩ hnot
      · rfl
    · rfl
  · obtain ⟨dictionary, hresponse, haccount⟩ := postCompletion_ok.mp hpost
    simp only [FIRAuthEvent.account, told]
    rw [hresponse, Option.bind_some, haccount]

theorem told_received {event : FIRAuthEvent} (h : WireEvent.received F e = .ok event) (ref : Ref) :
    event.account ref = told F ref e := by
  cases e with
  | getAccountInfo call k other answer f =>
    obtain ⟨result, hposted, rfl⟩ := received_of_map h
    exact told_getAccountInfo F hposted
  | tokens call k answer now =>
    obtain ⟨result, -, rfl⟩ := received_of_map h
    rfl
  | secureToken other answer now f =>
    obtain ⟨result, -, rfl⟩ := received_of_map h
    rfl
  | getOOBConfirmationCode m other answer f =>
    obtain ⟨result, -, rfl⟩ := received_of_map h
    rfl
  | _ =>
    cases h
    rfl

section Runs

variable (firebaseAppName : String) (taggedPointer : String → Bool)
  (keychain : FIRAuthKeychain Archive) (reads : FIRAuthKeychain.ReadFaults)

end Runs

end FIRAuth

end WhichStream.Firebase
