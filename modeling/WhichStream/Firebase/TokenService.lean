import Mathlib.Data.Rat.Init
import WhichStream.Library.Machine
import WhichStream.Library.SerialQueue

/-!
The access token of a FirebaseAuth user: kept while it is valid, refreshed by a request
otherwise. Fetches run one at a time, so a refresh holds the ones behind it.
-/

namespace WhichStream.Firebase

open EventMachine SerialTasks SerialQueue

-- Seconds since the reference date.
abbrev NSDate := ℚ

abbrev ErrorCode := ℤ

def kFiveMinutes : ℚ := 5 * 60

structure FetchTask (γ : Type*) where
  forceRefresh : Bool
  callback : γ
  deriving DecidableEq, Repr

structure FIRSecureTokenService (γ : Type*) where
  taskQueue : SerialQueue (FetchTask γ)
  authorizationCode : Option String
  accessToken : Option String
  accessTokenExpirationDate : Option NSDate
  refreshToken : Option String

inductive SecureTokenRequest
  | refresh (refreshToken : String)
  | authCode (code : Option String)
  deriving DecidableEq, Repr

-- A response without an access token is an error of the request.
structure SecureTokenResponse where
  accessToken : String
  approximateExpirationDate : NSDate
  refreshToken : Option String
  present : accessToken ≠ ""

structure FetchResult where
  token : Option String
  error : Option ErrorCode
  tokenUpdated : Bool
  deriving DecidableEq, Repr

inductive TaskOutcome (γ : Type*)
  | calledBack (callback : γ) (result : FetchResult)
  | requested (request : SecureTokenRequest)

namespace FIRSecureTokenService

variable {γ : Type*} (s : FIRSecureTokenService γ)

def initWithTokens (accessToken : Option String) (accessTokenExpirationDate : Option NSDate)
    (refreshToken : Option String) : FIRSecureTokenService γ :=
  ⟨.empty, none, accessToken, accessTokenExpirationDate, refreshToken⟩

def setTaskQueue (taskQueue : SerialQueue (FetchTask γ)) : FIRSecureTokenService γ :=
  { s with taskQueue := taskQueue }

def fetchAccessToken (forceRefresh : Bool) (callback : γ) : FIRSecureTokenService γ :=
  s.setTaskQueue (s.taskQueue.enqueue ⟨forceRefresh, callback⟩)

def hasValidAccessToken (now : NSDate) : Bool :=
  s.accessToken.isSome && s.accessTokenExpirationDate.any (fun date => kFiveMinutes < date - now)

def request : SecureTokenRequest :=
  match s.refreshToken with
  | some token => if token = "" then .authCode s.authorizationCode else .refresh token
  | none => .authCode s.authorizationCode

def runTask (now : NSDate) : Option (TaskOutcome γ × FIRSecureTokenService γ) :=
  s.taskQueue.start.bind fun (task, started) =>
    if !task.forceRefresh && s.hasValidAccessToken now then
      started.complete.map fun (_, completed) =>
        (.calledBack task.callback ⟨s.accessToken, none, false⟩, s.setTaskQueue completed)
    else some (.requested s.request, s.setTaskQueue started)

-- An unchanged access token keeps its expiration date, whatever the response says.
def updateAccessToken (response : SecureTokenResponse) : Bool × FIRSecureTokenService γ :=
  if s.accessToken = some response.accessToken then (false, s)
  else (true, { s with
    accessToken := some response.accessToken
    accessTokenExpirationDate := some response.approximateExpirationDate })

def updateRefreshToken (response : SecureTokenResponse) : Bool × FIRSecureTokenService γ :=
  match response.refreshToken with
  | none => (false, s)
  | some token =>
    if token = "" || s.refreshToken = some token then (false, s)
    else (true, { s with refreshToken := some token })

def update (response : SecureTokenResponse) : Bool × FIRSecureTokenService γ :=
  let access := s.updateAccessToken response
  let refresh := access.2.updateRefreshToken response
  (access.1 || refresh.1, refresh.2)

-- The callback of `requestAccessToken`, which completes the task and passes its arguments on.
def requestCompleted (r : Except ErrorCode SecureTokenResponse) :
    Option ((γ × FetchResult) × FIRSecureTokenService γ) :=
  s.taskQueue.complete.map fun (task, completed) =>
    match r with
    | .error e => ((task.callback, ⟨none, some e, false⟩), s.setTaskQueue completed)
    | .ok response =>
      let updated := s.update response
      ((task.callback, ⟨some response.accessToken, none, updated.1⟩),
        updated.2.setTaskQueue completed)

def callbacks : List γ := s.taskQueue.tasks.map FetchTask.callback

def pair : Option String × Option NSDate := (s.accessToken, s.accessTokenExpirationDate)

-- What an archive of the service keeps.
def tokens : Option String × Option NSDate × Option String :=
  (s.accessToken, s.accessTokenExpirationDate, s.refreshToken)

@[simp] theorem setTaskQueue_tokens (taskQueue : SerialQueue (FetchTask γ)) :
    (s.setTaskQueue taskQueue).tokens = s.tokens := rfl

@[simp] theorem setTaskQueue_pair (taskQueue : SerialQueue (FetchTask γ)) :
    (s.setTaskQueue taskQueue).pair = s.pair := rfl

section Operations

variable {s} {s' : FIRSecureTokenService γ} {now : NSDate} {r : Except ErrorCode SecureTokenResponse}
  {response : SecureTokenResponse} {callback : γ} {result : FetchResult}

/-- The expiration date in use came with the access token in use. -/
def Issued (pair : Option String × Option NSDate) (response : SecureTokenResponse) : Prop :=
  pair = (some response.accessToken, some response.approximateExpirationDate)

theorem pair_congr (h : s'.tokens = s.tokens) : s'.pair = s.pair := by
  simp only [tokens, Prod.mk.injEq] at h
  exact Prod.ext h.1 h.2.1

@[simp] theorem callbacks_fetch (s : FIRSecureTokenService γ) (forceRefresh : Bool) (callback : γ) :
    (s.fetchAccessToken forceRefresh callback).callbacks = s.callbacks ++ [callback] := by
  unfold callbacks fetchAccessToken setTaskQueue
  rw [tasks_enqueue, List.map_append]
  rfl

theorem updateAccessToken_cases (s : FIRSecureTokenService γ) (response : SecureTokenResponse) :
    s.updateAccessToken response = (false, s) ∨
      s.accessToken ≠ some response.accessToken ∧ s.updateAccessToken response = (true, { s with
        accessToken := some response.accessToken
        accessTokenExpirationDate := some response.approximateExpirationDate }) := by
  unfold updateAccessToken
  split_ifs with h
  · exact Or.inl rfl
  · exact Or.inr ⟨h, rfl⟩

theorem updateRefreshToken_cases (s : FIRSecureTokenService γ) (response : SecureTokenResponse) :
    s.updateRefreshToken response = (false, s) ∨
      ∃ token, s.refreshToken ≠ some token ∧
        s.updateRefreshToken response = (true, { s with refreshToken := some token }) := by
  unfold updateRefreshToken
  split
  · exact Or.inl rfl
  · next token _ =>
    split_ifs with h
    · exact Or.inl rfl
    · simp only [Bool.or_eq_true, decide_eq_true_eq, not_or] at h
      exact Or.inr ⟨token, h.2, rfl⟩

/-- The outcomes of a response: the pair of access token and date is kept or replaced as
one, and the update is reported exactly when a token changes. -/
theorem update_cases (s : FIRSecureTokenService γ) (response : SecureTokenResponse) :
    ∃ s', s.update response = (decide (s'.tokens ≠ s.tokens), s') ∧ s'.taskQueue = s.taskQueue ∧
      (s'.pair = s.pair ∨ Issued s'.pair response) := by
  unfold update
  dsimp only
  obtain ha | ⟨hne, ha⟩ := s.updateAccessToken_cases response
  · obtain hr | ⟨token, hrne, hr⟩ := s.updateRefreshToken_cases response
    · rw [ha, hr]
      exact ⟨s, by simp, rfl, Or.inl rfl⟩
    · rw [ha, hr]
      exact ⟨{ s with refreshToken := some token }, by simp [tokens, hrne.symm], rfl, Or.inl rfl⟩
  · set renewed : FIRSecureTokenService γ := { s with
      accessToken := some response.accessToken
      accessTokenExpirationDate := some response.approximateExpirationDate }
    obtain hr | ⟨token, -, hr⟩ := renewed.updateRefreshToken_cases response
    · rw [ha, hr]
      exact ⟨renewed, by simp [tokens, renewed, hne.symm], rfl, Or.inr rfl⟩
    · rw [ha, hr]
      exact ⟨{ renewed with refreshToken := some token }, by simp [tokens, renewed, hne.symm], rfl,
        Or.inr rfl⟩

theorem runTask_cases {outcome : TaskOutcome γ} (h : s.runTask now = some (outcome, s')) :
    s'.tokens = s.tokens ∧
      ((∃ callback, outcome = .calledBack callback ⟨s.accessToken, none, false⟩ ∧
        s.hasValidAccessToken now = true ∧ s.callbacks = callback :: s'.callbacks) ∨
      outcome = .requested s.request ∧ s'.callbacks = s.callbacks) := by
  obtain ⟨⟨task, started⟩, hstart, h⟩ := Option.bind_eq_some_iff.mp h
  dsimp only at h
  split_ifs at h with hvalid
  · obtain ⟨⟨t, completed⟩, hcomplete, h⟩ := Option.map_eq_some_iff.mp h
    obtain ⟨rfl, rfl⟩ := Prod.mk.inj h
    have hsame : t = task := by
      have hrunning := (start_cases hstart).2.2
      rw [(complete_cases hcomplete).1] at hrunning
      exact Option.some.inj hrunning
    refine ⟨rfl, Or.inl ⟨task.callback, rfl, (Bool.and_eq_true_iff.mp hvalid).2, ?_⟩⟩
    rw [callbacks, ← tasks_start hstart, tasks_complete hcomplete, hsame]
    rfl
  · obtain ⟨rfl, rfl⟩ := Prod.mk.inj (Option.some.inj h)
    refine ⟨rfl, Or.inr ⟨rfl, ?_⟩⟩
    rw [callbacks, callbacks, ← tasks_start hstart]
    rfl

theorem requestCompleted_cases
    (h : s.requestCompleted r = some ((callback, result), s')) :
    s.callbacks = callback :: s'.callbacks ∧
      ((∃ e, r = .error e ∧ result = ⟨none, some e, false⟩ ∧ s'.tokens = s.tokens) ∨
      ∃ response, r = .ok response ∧
        result = ⟨some response.accessToken, none, decide (s'.tokens ≠ s.tokens)⟩ ∧
        (s'.pair = s.pair ∨ Issued s'.pair response)) := by
  obtain ⟨⟨task, completed⟩, hcomplete, h⟩ := Option.map_eq_some_iff.mp h
  have htasks : s.callbacks = task.callback :: completed.tasks.map FetchTask.callback := by
    rw [callbacks, tasks_complete hcomplete]
    rfl
  cases r with
  | error e =>
    simp only [Prod.mk.injEq] at h
    obtain ⟨⟨rfl, rfl⟩, rfl⟩ := h
    exact ⟨htasks, Or.inl ⟨e, rfl, rfl, rfl⟩⟩
  | ok response =>
    obtain ⟨u, hu, -, hpair⟩ := s.update_cases response
    dsimp only at h
    simp only [hu, Prod.mk.injEq] at h
    obtain ⟨⟨rfl, rfl⟩, rfl⟩ := h
    exact ⟨htasks, Or.inr ⟨response, rfl, rfl, hpair⟩⟩

theorem update_accessToken (s : FIRSecureTokenService γ) (response : SecureTokenResponse) :
    (s.update response).2.accessToken = some response.accessToken := by
  have haccess : (s.updateAccessToken response).2.accessToken = some response.accessToken := by
    unfold updateAccessToken
    split_ifs with h
    · exact h
    · rfl
  have hupdate : (s.update response).2 =
    ((s.updateAccessToken response).2.updateRefreshToken response).2 := rfl
  rw [hupdate]
  obtain hr | ⟨token, -, hr⟩ := (s.updateAccessToken response).2.updateRefreshToken_cases response
  · rw [hr]
    exact haccess
  · rw [hr]
    exact haccess

theorem update_refreshToken {s : FIRSecureTokenService γ} {response : SecureTokenResponse}
    (h : s.refreshToken.isSome = true) : (s.update response).2.refreshToken.isSome = true := by
  have haccess : (s.updateAccessToken response).2.refreshToken = s.refreshToken := by
    obtain ha | ⟨-, ha⟩ := s.updateAccessToken_cases response
    · rw [ha]
    · rw [ha]
  have hupdate : (s.update response).2 =
    ((s.updateAccessToken response).2.updateRefreshToken response).2 := rfl
  rw [hupdate]
  obtain hr | ⟨token, -, hr⟩ := (s.updateAccessToken response).2.updateRefreshToken_cases response
  · rw [hr, haccess]
    exact h
  · rw [hr]
    rfl

theorem requestCompleted_refreshToken (h : s.requestCompleted r = some ((callback, result), s'))
    (hs : s.refreshToken.isSome = true) : s'.refreshToken.isSome = true := by
  obtain ⟨⟨task, completed⟩, -, h⟩ := Option.map_eq_some_iff.mp h
  cases r with
  | error e =>
    obtain rfl := (Prod.mk.inj h).2
    exact hs
  | ok response =>
    obtain rfl := (Prod.mk.inj h).2
    exact update_refreshToken hs

theorem requestCompleted_accessToken
    (h : s.requestCompleted (.ok response) = some ((callback, result), s')) :
    s'.accessToken = some response.accessToken := by
  obtain ⟨⟨task, completed⟩, -, h⟩ := Option.map_eq_some_iff.mp h
  obtain rfl := (Prod.mk.inj h).2
  exact s.update_accessToken response

end Operations

end FIRSecureTokenService

structure TokenRun (γ : Type*) where
  service : FIRSecureTokenService γ
  calledBack : List (γ × FetchResult)

inductive TokenEvent (γ : Type*)
  | fetchAccessToken (forceRefresh : Bool) (callback : γ)
  | runTask (now : NSDate)
  | requestCompleted (r : Except ErrorCode SecureTokenResponse)

namespace TokenRun

variable {γ : Type*}

def fetched : TokenEvent γ → List γ
  | .fetchAccessToken _ callback => [callback]
  | _ => []

def ended (calledBack : List (γ × FetchResult)) : TaskOutcome γ → List (γ × FetchResult)
  | .calledBack callback result => calledBack ++ [(callback, result)]
  | .requested _ => calledBack

def step (t : TokenRun γ) : TokenEvent γ → Option (TokenRun γ)
  | .fetchAccessToken forceRefresh callback =>
    some { t with service := t.service.fetchAccessToken forceRefresh callback }
  | .runTask now => (t.service.runTask now).map fun (outcome, service) =>
    ⟨service, ended t.calledBack outcome⟩
  | .requestCompleted r => (t.service.requestCompleted r).map fun (call, service) =>
    ⟨service, t.calledBack ++ [call]⟩

def machine : Machine (TokenRun γ) (TokenEvent γ) := ⟨step⟩

/-- The fetches that have been made, the answered ones first. -/
def fetches (t : TokenRun γ) : List γ := t.calledBack.map Prod.fst ++ t.service.callbacks

theorem fetches_step {t u : TokenRun γ} {e : TokenEvent γ} (h : machine.step t e = some u) :
    u.fetches = t.fetches ++ fetched e := by
  cases e with
  | fetchAccessToken forceRefresh callback =>
    obtain rfl := Option.some.inj h
    simp [fetches, fetched]
  | runTask now =>
    obtain ⟨⟨outcome, service⟩, hr, rfl⟩ := Option.map_eq_some_iff.mp h
    obtain ⟨-, ⟨callback, rfl, -, hcallbacks⟩ | ⟨rfl, hcallbacks⟩⟩ :=
      FIRSecureTokenService.runTask_cases hr
    · simp [fetches, fetched, ended, hcallbacks]
    · simp [fetches, fetched, ended, hcallbacks]
  | requestCompleted r =>
    obtain ⟨⟨⟨callback, result⟩, service⟩, hr, rfl⟩ := Option.map_eq_some_iff.mp h
    obtain ⟨hcallbacks, -⟩ := FIRSecureTokenService.requestCompleted_cases hr
    simp [fetches, fetched, hcallbacks]

/-- However fetches, tasks and responses interleave, the fetches are called back in the
order in which they were made, each once, and the others still wait. -/
theorem called_back_in_order {start t : TokenRun γ} {es : List (TokenEvent γ)}
    (h : machine.run start es = some t) :
    t.calledBack.map Prod.fst ++ t.service.callbacks = start.fetches ++ es.flatMap fetched :=
  Machine.ledger (fun _ _ _ => fetches_step) h

theorem called_back_refreshed : ∃ t : TokenRun ℕ, t.calledBack.length = 2 ∧
    t.calledBack.map Prod.fst ++ t.service.callbacks = [7, 9] := by
  let start : TokenRun ℕ := ⟨.initWithTokens none none (some "refresh"), []⟩
  let es : List (TokenEvent ℕ) := [.fetchAccessToken false 7, .runTask 0, .fetchAccessToken false 9,
    .requestCompleted (.ok ⟨"access", 3600, none, by decide⟩), .runTask 5]
  have h : (machine.run start es).isSome := by decide +kernel
  obtain ⟨t, ht⟩ := Option.isSome_iff_exists.mp h
  refine ⟨t, ?_, called_back_in_order ht⟩
  have hlength : (machine.run start es).map (fun t => t.calledBack.length) = some 2 := by
    decide +kernel
  rw [ht] at hlength
  exact Option.some.inj hlength

/-- The token and date in use came together, from the start or from one response. -/
def Source (start : TokenRun γ) (before : List (TokenEvent γ))
    (pair : Option String × Option NSDate) : Prop :=
  pair = start.service.pair ∨
    ∃ response, .requestCompleted (.ok response) ∈ before ∧ FIRSecureTokenService.Issued pair response

theorem Source.append {start : TokenRun γ} {before : List (TokenEvent γ)}
    {pair : Option String × Option NSDate} (h : Source start before pair) (e : TokenEvent γ) :
    Source start (before ++ [e]) pair := by
  obtain h | ⟨response, hmem, hissued⟩ := h
  · exact Or.inl h
  · exact Or.inr ⟨response, List.mem_append_left _ hmem, hissued⟩

theorem source_step {start t u : TokenRun γ} {before : List (TokenEvent γ)} {e : TokenEvent γ}
    (h : Source start before t.service.pair) (hu : machine.step t e = some u) :
    Source start (before ++ [e]) u.service.pair := by
  cases e with
  | fetchAccessToken forceRefresh callback =>
    obtain rfl := Option.some.inj hu
    exact h.append _
  | runTask now =>
    obtain ⟨⟨outcome, service⟩, hr, rfl⟩ := Option.map_eq_some_iff.mp hu
    have hpair := FIRSecureTokenService.pair_congr (FIRSecureTokenService.runTask_cases hr).1
    exact hpair ▸ h.append _
  | requestCompleted r =>
    obtain ⟨⟨⟨callback, result⟩, service⟩, hr, rfl⟩ := Option.map_eq_some_iff.mp hu
    obtain ⟨-, ⟨e, rfl, -, htokens⟩ | ⟨response, rfl, -, hpair | hissued⟩⟩ :=
      FIRSecureTokenService.requestCompleted_cases hr
    · have hpair := FIRSecureTokenService.pair_congr htokens
      exact hpair ▸ h.append _
    · exact hpair ▸ h.append _
    · exact Or.inr ⟨response, List.mem_append_right _ (List.mem_singleton_self _), hissued⟩

/-- In every run, a token that is handed out without a request is one that was issued with
an expiration date more than five minutes ahead. -/
theorem cached_tokens_valid (start : TokenRun γ) (es : List (TokenEvent γ)) :
    machine.EachStep (fun before t e u => ∀ now callback result, e = .runTask now →
      u.calledBack = t.calledBack ++ [(callback, result)] →
      ∃ token date, result = ⟨some token, none, false⟩ ∧ kFiveMinutes < date - now ∧
        Source start before (some token, some date)) start es := by
  intro before e hb t u ht hu now callback result he hcall
  subst he
  have hsource : Source start before t.service.pair :=
    Machine.invariant (I := fun before t => Source start before t.service.pair) (Or.inl rfl)
      (fun _ _ _ _ h hu => source_step h hu) ht
  obtain ⟨⟨outcome, service⟩, hr, rfl⟩ := Option.map_eq_some_iff.mp hu
  obtain ⟨-, ⟨_, rfl, hvalid, -⟩ | ⟨rfl, -⟩⟩ := FIRSecureTokenService.runTask_cases hr
  · have hresult := List.append_cancel_left hcall
    simp only [List.cons.injEq, Prod.mk.injEq, and_true] at hresult
    obtain ⟨-, rfl⟩ := hresult
    obtain ⟨htoken, hdate⟩ := Bool.and_eq_true_iff.mp hvalid
    obtain ⟨token, htoken⟩ := Option.isSome_iff_exists.mp htoken
    obtain ⟨date, hdate, hlt⟩ := (Option.any_eq_true _ _).mp hdate
    have hpair : t.service.pair = (some token, some date) := Prod.ext htoken hdate
    exact ⟨token, date, by rw [htoken], of_decide_eq_true hlt, hpair ▸ hsource⟩
  · simp [ended] at hcall

end TokenRun

end WhichStream.Firebase
