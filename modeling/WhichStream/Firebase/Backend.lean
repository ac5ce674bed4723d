import WhichStream.Firebase.ErrorUtils

/-!
The answers of the service of FirebaseAuth: which of them are errors, which errors make a
token invalid, and on which the code raises an exception instead of calling back.
-/

namespace WhichStream.Firebase

-- A body, as far as it can be decoded.
structure NSData where
  JSONObjectWithData : Except NSError JSON

structure HTTPAnswer where
  data : Option NSData
  error : Option NSError

namespace FIRAuthBackend

open FIRAuthErrorUtils

def underlyingReason (underlyingError : JSON) : Option JSON :=
  underlyingError.dictionary?.bind (List.lookup "reason")

-- The loop over the underlying errors; only a text can be asked for a prefix.
def underlyingClientError : List JSON → Except NSException (Option NSError)
  | [] => .ok none
  | underlyingError :: rest =>
    match underlyingReason underlyingError with
    | none => underlyingClientError rest
    | some reason =>
      match reason.string? with
      | none => .error .unrecognizedSelector
      | some reason =>
        if "keyInvalid".toList <+: reason.toList then .ok (some invalidAPIKeyError)
        else if reason = "ipRefererBlocked" then .ok (some appNotAuthorizedError)
        else underlyingClientError rest

def clientErrorWithServerErrorMessage (serverErrorMessage : String) (errorDictionary : NSDictionary) :
    Except NSException (Option NSError) :=
  let message := shortErrorMessage serverErrorMessage
  match serverErrors.lookup message.1 with
  | some e => (e.error serverErrorMessage message.2).map some
  | none =>
    match (errorDictionary.lookup "errors").bind JSON.array? with
    | some underlyingErrors => underlyingClientError underlyingErrors
    | none => .ok none

def serverError (dictionary : NSDictionary) : Except NSException NSError :=
  match (dictionary.lookup "error").bind JSON.dictionary? with
  | some errorDictionary =>
    match (errorDictionary.lookup "message").bind JSON.string? with
    | some errorMessage =>
      (clientErrorWithServerErrorMessage errorMessage errorDictionary).map
        (fun clientError => clientError.getD (unexpectedErrorResponse (.dictionary errorDictionary)))
    | none =>
      if (errorDictionary.lookup "message").isSome then
        .ok (unexpectedErrorResponse (.dictionary errorDictionary))
      else .ok (unexpectedErrorResponse (.dictionary dictionary))
  | none => .ok (unexpectedErrorResponse (.dictionary dictionary))

section Completion

variable {β : Type*} (setWithDictionary : NSDictionary → Except NSException (Except (Option NSError) β))

def setResponse (dictionary : NSDictionary) : Except NSException (Except NSError β) :=
  match setWithDictionary dictionary with
  | .error x => .error x
  | .ok (.ok response) => .ok (.ok response)
  | .ok (.error error) => (RPCResponseDecodingError dictionary error).map .error

-- The completion handler of `postWithRequest`, with the response that the request asks for.
def postCompletion (answer : HTTPAnswer) : Except NSException (Except NSError β) :=
  match answer.data, answer.error with
  | none, some error => .ok (.error (networkError error))
  | none, none => .error .invalidArgument
  | some data, error =>
    match data.JSONObjectWithData, error with
    | .error _, some error => .ok (.error (unexpectedErrorResponseWithData error))
    | .error jsonError, none => .ok (.error (unexpectedResponseWithData jsonError))
    | .ok (.dictionary dictionary), some _ => (serverError dictionary).map .error
    | .ok (.dictionary dictionary), none => setResponse setWithDictionary dictionary
    | .ok json, some _ => .ok (.error (unexpectedErrorResponse json))
    | .ok json, none => .ok (.error (unexpectedResponse json))

end Completion

end FIRAuthBackend

namespace HTTPAnswer

open FIRAuthBackend

def dictionary (answer : HTTPAnswer) : Option NSDictionary :=
  answer.data.bind (fun data => data.JSONObjectWithData.toOption.bind JSON.dictionary?)

-- The message of the server, with the dictionary that it comes in.
def serverErrorMessage (answer : HTTPAnswer) : Option (NSDictionary × String) :=
  if answer.error.isSome then
    answer.dictionary.bind fun dictionary =>
      ((dictionary.lookup "error").bind JSON.dictionary?).bind fun errorDictionary =>
        ((errorDictionary.lookup "message").bind JSON.string?).map fun errorMessage =>
          (errorDictionary, errorMessage)
  else none

-- The dictionary of an answer that is no error.
def response (answer : HTTPAnswer) : Option NSDictionary :=
  if answer.error.isSome then none else answer.dictionary

def Says (answer : HTTPAnswer) (message : String) : Prop :=
  ∃ errorDictionary serverErrorMessage,
    answer.serverErrorMessage = some (errorDictionary, serverErrorMessage) ∧
      FIRAuthBackend.Says serverErrorMessage message

end HTTPAnswer

namespace FIRAuthBackend

open FIRAuthErrorUtils

/-- What an answer comes to: the message of the server, the dictionary of a response, or an
error that neither is about. -/
inductive Posted {β : Type*}
    (setWithDictionary : NSDictionary → Except NSException (Except (Option NSError) β))
    (answer : HTTPAnswer) : Except NSException (Except NSError β) → Prop
  | refused {errorDictionary errorMessage}
      (h : answer.serverErrorMessage = some (errorDictionary, errorMessage)) :
      Posted setWithDictionary answer
        ((clientErrorWithServerErrorMessage errorMessage errorDictionary).map (fun clientError =>
          .error (clientError.getD (unexpectedErrorResponse (.dictionary errorDictionary)))))
  | responded {dictionary} (h : answer.response = some dictionary) :
      Posted setWithDictionary answer (setResponse setWithDictionary dictionary)
  | failed {error} (hmessage : answer.serverErrorMessage = none) (hresponse : answer.response = none)
      (hcode : error.code = FIRAuthErrorCodeNetworkError ∨ error.code = FIRAuthErrorCodeInternalError)
      (hbody : ¬(answer.data = none ∧ answer.error = none)) :
      Posted setWithDictionary answer (.ok (.error error))
  | empty (hdata : answer.data = none) (herror : answer.error = none) :
      Posted setWithDictionary answer (.error .invalidArgument)

variable {β : Type*} {setWithDictionary : NSDictionary → Except NSException (Except (Option NSError) β)}
  {answer : HTTPAnswer}

theorem serverError_posted {dictionary : NSDictionary} {error : NSError}
    (hdata : answer.data = some ⟨.ok (.dictionary dictionary)⟩) (herror : answer.error = some error) :
    Posted setWithDictionary answer ((serverError dictionary).map .error) := by
  have hsome : answer.error.isSome = true := by rw [herror, Option.isSome_some]
  have hdictionary : answer.dictionary = some dictionary := by rw [HTTPAnswer.dictionary, hdata]; rfl
  have hresponse : answer.response = none := if_pos hsome
  have hmessages : answer.serverErrorMessage =
      ((dictionary.lookup "error").bind JSON.dictionary?).bind fun errorDictionary =>
        ((errorDictionary.lookup "message").bind JSON.string?).map fun errorMessage =>
          (errorDictionary, errorMessage) := by
    rw [HTTPAnswer.serverErrorMessage, if_pos hsome, hdictionary, Option.bind_some]
  have hfailed : ∀ json, answer.serverErrorMessage = none →
      Posted setWithDictionary answer (.ok (.error (unexpectedErrorResponse json))) :=
    fun json hmessage => .failed hmessage hresponse (Or.inr rfl) (by simp [hdata])
  unfold serverError
  cases hfound : (dictionary.lookup "error").bind JSON.dictionary? with
  | none =>
    apply hfailed
    rw [hmessages, hfound, Option.bind_none]
  | some errorDictionary =>
    rw [hfound, Option.bind_some] at hmessages
    dsimp only
    cases hmessage : (errorDictionary.lookup "message").bind JSON.string? with
    | none =>
      rw [hmessage, Option.map_none] at hmessages
      dsimp only
      split_ifs
      · exact hfailed _ hmessages
      · exact hfailed _ hmessages
    | some errorMessage =>
      rw [hmessage, Option.map_some] at hmessages
      have hrefused : Posted setWithDictionary answer _ := .refused hmessages
      dsimp only
      cases hclient : clientErrorWithServerErrorMessage errorMessage errorDictionary with
      | error x =>
        rw [hclient] at hrefused
        exact hrefused
      | ok clientError =>
        rw [hclient] at hrefused
        exact hrefused

theorem postCompletion_posted : Posted setWithDictionary answer
    (postCompletion setWithDictionary answer) := by
  obtain ⟨data, error⟩ := answer
  unfold postCompletion
  cases data with
  | none =>
    cases error with
    | none => exact .empty rfl rfl
    | some error => exact .failed rfl rfl (Or.inl rfl) (by simp)
  | some data =>
    obtain ⟨decoded⟩ := data
    cases decoded with
    | error jsonError => cases error <;> exact .failed rfl rfl (Or.inr rfl) (by simp)
    | ok json =>
      cases json with
      | dictionary dictionary =>
        cases error with
        | none => exact .responded rfl
        | some error => exact serverError_posted rfl rfl
      | _ => cases error <;> exact .failed rfl rfl (Or.inr rfl) (by simp)

section Messages

variable {errorDictionary : NSDictionary} {errorMessage message : String}

theorem exists_message_of_lookup {e : ClientError}
    (h : serverErrors.lookup (shortErrorMessage errorMessage).1 = some e) :
    ∃ message, (message, e) ∈ serverErrors ∧ Says errorMessage message := by
  have hmem := (lookup_eq_some_iff_mem serverErrors_nodup).mp h
  exact ⟨_, hmem, (shortErrorMessage_iff hmem).mp rfl⟩

theorem lookup_of_message {e : ClientError} (hmem : (message, e) ∈ serverErrors)
    (h : Says errorMessage message) :
    serverErrors.lookup (shortErrorMessage errorMessage).1 = some e := by
  rw [(shortErrorMessage_iff hmem).mpr h]
  exact (lookup_eq_some_iff_mem serverErrors_nodup).mpr hmem

def Undecided (underlyingError : JSON) : Prop :=
  ∀ reason, underlyingReason underlyingError = some reason → ∃ text, reason.string? = some text ∧
    ¬"keyInvalid".toList <+: text.toList ∧ text ≠ "ipRefererBlocked"

-- The first underlying error that decides anything has a reason that is no text.
def Misreasoned (underlyingErrors : List JSON) : Prop :=
  ∃ before underlyingError after reason, underlyingErrors = before ++ underlyingError :: after ∧
    (∀ e ∈ before, Undecided e) ∧ underlyingReason underlyingError = some reason ∧
      reason.string? = none

/-- An underlying error that decides nothing is passed over; one that decides raises, or gives
one of two errors. -/
theorem underlyingClientError_cons (underlyingError : JSON) (rest : List JSON) :
    Undecided underlyingError ∧
        underlyingClientError (underlyingError :: rest) = underlyingClientError rest ∨
      ¬Undecided underlyingError ∧ ∃ reason, underlyingReason underlyingError = some reason ∧
        (reason.string? = none ∧
            underlyingClientError (underlyingError :: rest) = .error .unrecognizedSelector ∨
          reason.string? ≠ none ∧ ∃ error,
            underlyingClientError (underlyingError :: rest) = .ok (some error) ∧
            (error = invalidAPIKeyError ∨ error = appNotAuthorizedError)) := by
  rw [underlyingClientError]
  unfold Undecided
  cases hreason : underlyingReason underlyingError with
  | none => exact Or.inl ⟨by simp, rfl⟩
  | some reason =>
    simp only [Option.some.injEq, forall_eq']
    cases htext : reason.string? with
    | none => exact Or.inr ⟨by simp, reason, rfl, Or.inl ⟨htext, rfl⟩⟩
    | some text =>
      dsimp only
      split_ifs with hkey hblocked
      · refine Or.inr ⟨?_, reason, rfl, Or.inr ⟨by simp [htext], _, rfl, Or.inl rfl⟩⟩
        rintro ⟨_, ⟨⟩, hnot, -⟩
        exact hnot hkey
      · refine Or.inr ⟨?_, reason, rfl, Or.inr ⟨by simp [htext], _, rfl, Or.inr rfl⟩⟩
        rintro ⟨_, ⟨⟩, -, hne⟩
        exact hne hblocked
      · exact Or.inl ⟨⟨text, rfl, hkey, hblocked⟩, rfl⟩

theorem underlyingClientError_code {underlyingErrors : List JSON} {error : NSError}
    (h : underlyingClientError underlyingErrors = .ok (some error)) :
    error = invalidAPIKeyError ∨ error = appNotAuthorizedError := by
  induction underlyingErrors with
  | nil => cases h
  | cons underlyingError rest ih =>
    obtain ⟨-, heq⟩ | ⟨-, reason, -, ⟨-, heq⟩ | ⟨-, error', heq, herror⟩⟩ :=
      underlyingClientError_cons underlyingError rest
    · exact ih (heq ▸ h)
    · rw [heq] at h
      cases h
    · rw [heq] at h
      cases h
      exact herror

theorem misreasoned_cons {underlyingError : JSON} {rest : List JSON} :
    Misreasoned (underlyingError :: rest) ↔
      (∃ reason, underlyingReason underlyingError = some reason ∧ reason.string? = none) ∨
        Undecided underlyingError ∧ Misreasoned rest := by
  constructor
  · rintro ⟨before, e, after, reason, heq, hbefore, hreason, hnot⟩
    cases before with
    | nil =>
      obtain ⟨rfl, -⟩ := List.cons.inj heq
      exact Or.inl ⟨reason, hreason, hnot⟩
    | cons first before =>
      obtain ⟨rfl, rfl⟩ := List.cons.inj heq
      obtain ⟨hfirst, hbefore⟩ := List.forall_mem_cons.mp hbefore
      exact Or.inr ⟨hfirst, before, e, after, reason, rfl, hbefore, hreason, hnot⟩
  · rintro (⟨reason, hreason, hnot⟩ | ⟨hfirst, before, e, after, reason, rfl, hbefore, hreason, hnot⟩)
    · exact ⟨[], underlyingError, rest, reason, rfl, by simp, hreason, hnot⟩
    · exact ⟨underlyingError :: before, e, after, reason, rfl,
        List.forall_mem_cons.mpr ⟨hfirst, hbefore⟩, hreason, hnot⟩

theorem underlyingClientError_raises {underlyingErrors : List JSON} {x : NSException} :
    underlyingClientError underlyingErrors = .error x ↔
      Misreasoned underlyingErrors ∧ x = .unrecognizedSelector := by
  induction underlyingErrors with
  | nil => simp [underlyingClientError, Misreasoned]
  | cons underlyingError rest ih =>
    rw [misreasoned_cons]
    obtain ⟨hundecided, heq⟩ | ⟨hdecides, reason, hreason, ⟨hnot, heq⟩ | ⟨htext, error, heq, -⟩⟩ :=
      underlyingClientError_cons underlyingError rest
    · have hno : ¬∃ reason, underlyingReason underlyingError = some reason ∧ reason.string? = none := by
        rintro ⟨reason, hreason, hnot⟩
        obtain ⟨text, htext, -⟩ := hundecided reason hreason
        rw [hnot] at htext
        cases htext
      rw [heq, ih]
      simp [hno, hundecided]
    · rw [heq]
      simp [hreason, hnot, hdecides, eq_comm]
    · rw [heq]
      simp [hreason, htext, hdecides]

theorem revokes_of_lookup {e : ClientError}
    (h : serverErrors.lookup (shortErrorMessage errorMessage).1 = some e) :
    invalidatesToken e.code = true ↔ ∃ message ∈ revokingMessages, Says errorMessage message := by
  constructor
  · intro hrevokes
    obtain ⟨message, hmem, hsaid⟩ := exists_message_of_lookup h
    exact ⟨message, mem_revokingMessages.mpr ⟨e, hmem, hrevokes⟩, hsaid⟩
  · rintro ⟨message, hmem, hsaid⟩
    obtain ⟨e', hmem', hrevokes⟩ := mem_revokingMessages.mp hmem
    rw [lookup_of_message hmem' hsaid, Option.some.injEq] at h
    rwa [← h]

theorem not_said_of_lookup (h : serverErrors.lookup (shortErrorMessage errorMessage).1 = none)
    {entry : String × ClientError} (hmem : entry ∈ serverErrors) : ¬Says errorMessage entry.1 := by
  intro hsaid
  rw [lookup_of_message hmem hsaid] at h
  cases h

/-- A known message gives its own error; any other one gives no error that ends a session. -/
theorem clientError_revokes_iff :
    (∃ error, clientErrorWithServerErrorMessage errorMessage errorDictionary = .ok (some error) ∧
      invalidatesToken error.code = true) ↔
        ∃ message ∈ revokingMessages, Says errorMessage message := by
  unfold clientErrorWithServerErrorMessage
  dsimp only
  cases hfound : serverErrors.lookup (shortErrorMessage errorMessage).1 with
  | some e =>
    rw [← revokes_of_lookup hfound]
    dsimp only
    cases hout : e.error errorMessage (shortErrorMessage errorMessage).2 with
    | error x =>
      obtain ⟨rfl, -, -⟩ := ClientError.error_raises.mp hout
      constructor
      · rintro ⟨error, h, -⟩
        cases h
      · intro hrevokes
        exact absurd hrevokes (by decide)
    | ok error =>
      rw [← ClientError.error_code hout]
      constructor
      · rintro ⟨error', h, hrevokes⟩
        cases h
        exact hrevokes
      · exact fun hrevokes => ⟨error, rfl, hrevokes⟩
  | none =>
    constructor
    · rintro ⟨error, h, hrevokes⟩
      dsimp only at h
      split at h
      · obtain rfl | rfl := underlyingClientError_code h
        · exact absurd hrevokes (by decide)
        · exact absurd hrevokes (by decide)
      · cases h
    · rintro ⟨message, hmem, hsaid⟩
      obtain ⟨e, hmem', -⟩ := mem_revokingMessages.mp hmem
      exact absurd hsaid (not_said_of_lookup hfound hmem')

theorem shortErrorMessage_bare (message : String) (h : ':' ∉ message.toList) :
    shortErrorMessage errorMessage = (message, none) ↔ errorMessage = message := by
  have hbare : LabelledMessages.split whitespaceCharacterSet ':' errorMessage.toList =
      (message.toList, none) ↔ errorMessage.toList = message.toList :=
    LabelledMessages.split_bare_iff h
  rw [← String.toList_inj, ← hbare]
  unfold shortErrorMessage
  dsimp only
  generalize LabelledMessages.split whitespaceCharacterSet ':' errorMessage.toList = parts
  obtain ⟨short, detail⟩ := parts
  simp only [Prod.mk.injEq, Option.map_eq_none_iff]
  refine and_congr_left' ⟨?_, ?_⟩
  · rintro rfl
    exact (String.toList_ofList ..).symm
  · rintro rfl
    exact String.ofList_toList ..

theorem weakPassword_message {message : String} (h : (message, .weakPassword) ∈ serverErrors) :
    message = "WEAK_PASSWORD" := by
  simpa [serverErrors] using h

theorem clientError_raises {x : NSException} :
    clientErrorWithServerErrorMessage errorMessage errorDictionary = .error x ↔
      errorMessage = "WEAK_PASSWORD" ∧ x = .invalidArgument ∨
        (∀ entry ∈ serverErrors, ¬Says errorMessage entry.1) ∧ x = .unrecognizedSelector ∧
          ∃ underlyingErrors, (errorDictionary.lookup "errors").bind JSON.array? =
            some underlyingErrors ∧ Misreasoned underlyingErrors := by
  have hweak : ("WEAK_PASSWORD", .weakPassword) ∈ serverErrors := by simp [serverErrors]
  unfold clientErrorWithServerErrorMessage
  dsimp only
  cases hfound : serverErrors.lookup (shortErrorMessage errorMessage).1 with
  | some e =>
    have hmem := (lookup_eq_some_iff_mem serverErrors_nodup).mp hfound
    have hsaid : ¬∀ entry ∈ serverErrors, ¬Says errorMessage entry.1 :=
      fun h => h _ hmem ((shortErrorMessage_iff hmem).mp rfl)
    have hraise : (e.error errorMessage (shortErrorMessage errorMessage).2).map some = .error x ↔
        e.error errorMessage (shortErrorMessage errorMessage).2 = .error x := by
      cases e.error errorMessage (shortErrorMessage errorMessage).2 <;> simp [Except.map]
    rw [hraise, ClientError.error_raises,
      ← shortErrorMessage_bare "WEAK_PASSWORD" (by simp)]
    simp only [hsaid, false_and, or_false]
    constructor
    · rintro ⟨rfl, hdetail, rfl⟩
      exact ⟨Prod.ext (weakPassword_message hmem) hdetail, rfl⟩
    · rintro ⟨hshort, rfl⟩
      rw [hshort] at hfound ⊢
      rw [(lookup_eq_some_iff_mem serverErrors_nodup).mpr hweak, Option.some.injEq] at hfound
      exact ⟨hfound.symm, rfl, rfl⟩
  | none =>
    have hnot : ∀ entry ∈ serverErrors, ¬Says errorMessage entry.1 :=
      fun _ hmem => not_said_of_lookup hfound hmem
    have hother : errorMessage ≠ "WEAK_PASSWORD" := fun h => hnot _ hweak (Or.inl (by rw [h]))
    simp only [hother, false_and, false_or]
    cases herrors : (errorDictionary.lookup "errors").bind JSON.array? with
    | none => simp
    | some underlyingErrors =>
      dsimp only
      rw [underlyingClientError_raises]
      constructor
      · rintro ⟨hmis, rfl⟩
        exact ⟨hnot, rfl, underlyingErrors, rfl, hmis⟩
      · rintro ⟨-, rfl, errors, herr, hmis⟩
        cases herr
        exact ⟨hmis, rfl⟩

end Messages

section Answers

variable {message : String}

theorem says_iff {errorDictionary : NSDictionary} {errorMessage : String}
    (h : answer.serverErrorMessage = some (errorDictionary, errorMessage)) :
    answer.Says message ↔ Says errorMessage message := by
  unfold HTTPAnswer.Says
  rw [h]
  constructor
  · rintro ⟨_, _, he, hsaid⟩
    cases he
    exact hsaid
  · exact fun hsaid => ⟨_, _, rfl, hsaid⟩

theorem not_said (h : answer.serverErrorMessage = none) : ¬answer.Says message := by
  rintro ⟨_, _, he, -⟩
  rw [h] at he
  cases he

theorem data_of_dictionary {dictionary : NSDictionary} (h : answer.dictionary = some dictionary) :
    answer.data ≠ none := by
  intro hnone
  rw [HTTPAnswer.dictionary, hnone] at h
  cases h

theorem excludes_of_message {p : NSDictionary × String} (h : answer.serverErrorMessage = some p) :
    answer.response = none ∧ answer.data ≠ none := by
  unfold HTTPAnswer.serverErrorMessage at h
  unfold HTTPAnswer.response
  split_ifs at h ⊢
  obtain ⟨dictionary, hdictionary, -⟩ := Option.bind_eq_some_iff.mp h
  exact ⟨rfl, data_of_dictionary hdictionary⟩

theorem excludes_of_response {dictionary : NSDictionary} (h : answer.response = some dictionary) :
    answer.serverErrorMessage = none ∧ answer.data ≠ none := by
  unfold HTTPAnswer.response at h
  unfold HTTPAnswer.serverErrorMessage
  split_ifs at h ⊢
  exact ⟨rfl, data_of_dictionary h⟩

theorem internalError_kept : invalidatesToken FIRAuthErrorCodeInternalError = false := by decide

theorem setResponse_kept {dictionary : NSDictionary} {error : NSError}
    (h : setResponse setWithDictionary dictionary = .ok (.error error)) :
    invalidatesToken error.code = false := by
  unfold setResponse at h
  split at h
  · cases h
  · cases h
  · next underlyingError _ =>
    cases underlyingError with
    | none => cases h
    | some underlyingError =>
      cases h
      exact internalError_kept

/-- An answer calls back with an error that ends the session exactly if it is an error whose
message says that the token is no longer good: no other answer does, whatever its body. -/
theorem revokes_iff : (∃ error, postCompletion setWithDictionary answer = .ok (.error error) ∧
    invalidatesToken error.code = true) ↔ ∃ message ∈ revokingMessages, answer.Says message := by
  have hposted := @postCompletion_posted _ setWithDictionary answer
  generalize postCompletion setWithDictionary answer = result at hposted
  cases hposted with
  | @refused errorDictionary errorMessage h =>
    simp only [says_iff h]
    rw [← @clientError_revokes_iff errorDictionary]
    cases hclient : clientErrorWithServerErrorMessage errorMessage errorDictionary with
    | error x => simp [Except.map]
    | ok clientError =>
      cases clientError with
      | some error => simp [Except.map]
      | none =>
        simp only [Except.map, Option.getD_none, Except.ok.injEq, Except.error.injEq, exists_eq_left',
          reduceCtorEq, false_and, exists_false, iff_false]
        exact ne_true_of_eq_false internalError_kept
  | responded h =>
    constructor
    · rintro ⟨error, herror, hrevokes⟩
      rw [setResponse_kept herror] at hrevokes
      cases hrevokes
    · rintro ⟨message, -, hsaid⟩
      exact absurd hsaid (not_said (excludes_of_response h).1)
  | failed hmessage hresponse hcode hbody =>
    constructor
    · rintro ⟨error, herror, hrevokes⟩
      cases herror
      obtain hcode | hcode := hcode
      · rw [hcode] at hrevokes
        exact absurd hrevokes (by decide)
      · rw [hcode] at hrevokes
        exact absurd hrevokes (by decide)
    · rintro ⟨message, -, hsaid⟩
      exact absurd hsaid (not_said hmessage)
  | empty hdata herror =>
    constructor
    · rintro ⟨error, h, -⟩
      cases h
    · rintro ⟨message, -, hsaid⟩
      refine absurd hsaid (not_said ?_)
      rw [HTTPAnswer.serverErrorMessage, herror]
      rfl

theorem setResponse_ok {dictionary : NSDictionary} {response : β} :
    setResponse setWithDictionary dictionary = .ok (.ok response) ↔
      setWithDictionary dictionary = .ok (.ok response) := by
  unfold setResponse
  split
  · next x h => simp [h]
  · next response' h => simp [h]
  · next underlyingError h =>
    rw [h]
    cases underlyingError <;> simp [RPCResponseDecodingError, Except.map]

/-- The request succeeds exactly with an answer that is no error, and a dictionary that the
response takes. -/
theorem postCompletion_ok {response : β} :
    postCompletion setWithDictionary answer = .ok (.ok response) ↔
      ∃ dictionary, answer.response = some dictionary ∧
        setWithDictionary dictionary = .ok (.ok response) := by
  have hposted := @postCompletion_posted _ setWithDictionary answer
  generalize postCompletion setWithDictionary answer = result at hposted
  cases hposted with
  | @refused errorDictionary errorMessage h =>
    rw [(excludes_of_message h).1]
    cases clientErrorWithServerErrorMessage errorMessage errorDictionary <;> simp [Except.map]
  | responded h =>
    rw [setResponse_ok, h]
    simp
  | failed hmessage hresponse hcode hbody => simp [hresponse]
  | empty hdata herror => simp [HTTPAnswer.response, HTTPAnswer.dictionary, hdata]

theorem setResponse_raises {dictionary : NSDictionary} {x : NSException} :
    setResponse setWithDictionary dictionary = .error x ↔
      setWithDictionary dictionary = .error x ∨
        setWithDictionary dictionary = .ok (.error none) ∧ x = .invalidArgument := by
  unfold setResponse
  split
  · next y h => simp [h]
  · next response h => simp [h]
  · next underlyingError h =>
    rw [h]
    cases underlyingError with
    | none => simp [RPCResponseDecodingError, Except.map, eq_comm]
    | some underlyingError => simp [RPCResponseDecodingError, Except.map]

/-- The completion handler raises exactly on an answer with nothing in it, on a weak password
without a detail, on an unknown message whose underlying errors have a reason that is no text,
and where the response cannot take the dictionary or refuses it without an error. -/
theorem raises_iff {x : NSException} : postCompletion setWithDictionary answer = .error x ↔
    answer.data = none ∧ answer.error = none ∧ x = .invalidArgument ∨
      (∃ errorDictionary errorMessage,
        answer.serverErrorMessage = some (errorDictionary, errorMessage) ∧
          (errorMessage = "WEAK_PASSWORD" ∧ x = .invalidArgument ∨
            (∀ entry ∈ serverErrors, ¬Says errorMessage entry.1) ∧ x = .unrecognizedSelector ∧
              ∃ underlyingErrors, (errorDictionary.lookup "errors").bind JSON.array? =
                some underlyingErrors ∧ Misreasoned underlyingErrors)) ∨
      ∃ dictionary, answer.response = some dictionary ∧
        (setWithDictionary dictionary = .error x ∨
          setWithDictionary dictionary = .ok (.error none) ∧ x = .invalidArgument) := by
  have hposted := @postCompletion_posted _ setWithDictionary answer
  generalize postCompletion setWithDictionary answer = result at hposted
  cases hposted with
  | @refused errorDictionary errorMessage h =>
    obtain ⟨hresponse, hdata⟩ := excludes_of_message h
    have hraise : (clientErrorWithServerErrorMessage errorMessage errorDictionary).map
        (fun clientError => (.error (clientError.getD
          (unexpectedErrorResponse (.dictionary errorDictionary))) : Except NSError β)) = .error x ↔
        clientErrorWithServerErrorMessage errorMessage errorDictionary = .error x := by
      cases clientErrorWithServerErrorMessage errorMessage errorDictionary <;> simp [Except.map]
    rw [hraise, clientError_raises, h, hresponse]
    simp [hdata]
  | @responded dictionary h =>
    obtain ⟨hmessage, hdata⟩ := excludes_of_response h
    rw [setResponse_raises, hmessage, h]
    simp [hdata]
  | failed hmessage hresponse hcode hbody =>
    rw [hmessage, hresponse]
    simp only [reduceCtorEq, false_and, exists_false, or_false, false_iff]
    exact fun h => hbody ⟨h.1, h.2.1⟩
  | empty hdata herror =>
    have hmessage : answer.serverErrorMessage = none := by
      rw [HTTPAnswer.serverErrorMessage, herror]
      rfl
    have hresponse : answer.response = none := by
      rw [HTTPAnswer.response, herror, HTTPAnswer.dictionary, hdata]
      rfl
    rw [hmessage, hresponse, hdata, herror]
    simp [eq_comm]

end Answers

end FIRAuthBackend

end WhichStream.Firebase
