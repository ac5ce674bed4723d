import WhichStream.Facebook.Actions

/-!
What the app gets from Facebook: handlers that are called once and never with something
they cannot take, a token for each challenge at most, and one user.
-/

namespace WhichStream.Facebook

open EventMachine

-- `getFacebookUserData`, which asks for the data of the user whose token is there.
def getFacebookUserData (currentAccessToken : Option FBSDKAccessToken) : Bool :=
  currentAccessToken.isSome

-- The closure of `facebookAuthentication`: whether the user's data is asked for. A value
-- that is forced and not there is a trap.
def facebookHandler (call : HandlerCall) : Option Bool :=
  if call.error.isNone then
    match call.result with
    | none => none
    | some result =>
      if result.isCancelled then some false
      else result.grantedPermissions.map fun granted =>
        "email" ∈ granted && getFacebookUserData call.currentAccessToken
  else some false

/-- The token that a call of the handler reports, and what was granted with it. -/
def HandlerCall.Reports (call : HandlerCall) (token : FBSDKAccessToken) (granted : Finset String) :
    Prop :=
  call.error = none ∧ ∃ declined, call.result = Logins.granting token granted declined

def HandlerCall.Handled (call : HandlerCall) : Prop :=
  facebookHandler call ≠ none ∧
    (facebookHandler call = some true ↔ ∃ token granted, call.Reports token granted ∧
      call.currentAccessToken = some token ∧ "email" ∈ granted)

namespace Logins

variable {s t : Logins} {deletes : Bool} {answer : Option (Reauthentication × Option String)}

section Handlers

theorem refused_handled {id : ℕ} {result : Option FBSDKLoginManagerLoginResult}
    {error : Option NSError} {current : Option FBSDKAccessToken} (h : Refused result error) :
    HandlerCall.Handled ⟨id, result, error, current⟩ := by
  obtain ⟨rfl, e, rfl⟩ | ⟨⟨declined, rfl⟩, rfl⟩ := h
  · refine ⟨Option.some_ne_none false, iff_of_false (fun hasks => by cases hasks) ?_⟩
    rintro ⟨token, granted, ⟨herror, -⟩, -⟩
    cases herror
  · refine ⟨Option.some_ne_none false, iff_of_false (fun hasks => by cases hasks) ?_⟩
    rintro ⟨token, granted, ⟨-, declined', hresult⟩, -⟩
    cases hresult

theorem granting_handled (id : ℕ) (token : FBSDKAccessToken) (granted : Finset String)
    (declined : Option (Finset String)) :
    HandlerCall.Handled ⟨id, granting token granted declined, none, some token⟩ := by
  have hasks : facebookHandler ⟨id, granting token granted declined, none, some token⟩ =
      some (decide ("email" ∈ granted)) := by
    unfold facebookHandler granting getFacebookUserData
    simp
  refine ⟨by rw [hasks]; exact Option.some_ne_none _, ?_⟩
  rw [hasks, Option.some.injEq, decide_eq_true_eq]
  constructor
  · exact fun hemail => ⟨token, granted, ⟨rfl, declined, rfl⟩, rfl, hemail⟩
  · rintro ⟨token', granted', ⟨-, declined', hresult⟩, -, hemail⟩
    have hgranted : granted = granted' := by
      simp only [granting, Option.some.injEq, FBSDKLoginManagerLoginResult.mk.injEq] at hresult
      exact hresult.2.2.1
    rw [hgranted]
    exact hemail

/-- The calls so far: one for a handler, of handlers that are no longer there, and each with
what the closure can take. -/
structure Called (s : Logins) : Prop where
  handled : ∀ call ∈ s.calls, call.Handled
  once : (s.calls.map HandlerCall.id).Nodup
  gone : ∀ id, s.handlers id = true → id ∉ s.calls.map HandlerCall.id
  made : ∀ id, s.handlers id = true ∨ id ∈ s.calls.map HandlerCall.id → id < s.created

theorem Called.invoke (h : s.Called) (id : ℕ) {result : Option FBSDKLoginManagerLoginResult}
    {error : Option NSError} (hcall : HandlerCall.Handled ⟨id, result, error, s.currentAccessToken⟩) :
    (s.invoke id result error).Called := by
  have hhandlers : ∀ other, (s.invoke id result error).handlers other = true →
      other ≠ id ∧ s.handlers other = true := by
    intro other hother
    have hother : Function.update s.handlers id false other = true := hother
    by_cases hne : other = id
    · rw [hne, Function.update_self] at hother
      cases hother
    · rw [Function.update_of_ne hne] at hother
      exact ⟨hne, hother⟩
  cases hid : s.handlers id with
  | false =>
    have hcalls : (s.invoke id result error).calls = s.calls := by
      rw [Logins.invoke, hid]
      rfl
    refine ⟨?_, ?_, ?_, ?_⟩
    · rw [hcalls]
      exact h.handled
    · rw [hcalls]
      exact h.once
    · intro other hother
      rw [hcalls]
      exact h.gone other (hhandlers other hother).2
    · intro other hother
      rw [hcalls] at hother
      exact h.made other (hother.imp_left (fun hh => (hhandlers other hh).2))
  | true =>
    have hcalls : (s.invoke id result error).calls =
        s.calls ++ [⟨id, result, error, s.currentAccessToken⟩] := by
      rw [Logins.invoke, hid]
      rfl
    refine ⟨?_, ?_, ?_, ?_⟩
    · intro call hmem
      rw [hcalls, List.mem_append, List.mem_singleton] at hmem
      obtain hmem | rfl := hmem
      · exact h.handled call hmem
      · exact hcall
    · rw [hcalls, List.map_append, List.map_singleton, ← List.concat_eq_append, List.nodup_concat]
      exact ⟨h.gone id hid, h.once⟩
    · intro other hother
      obtain ⟨hne, hother⟩ := hhandlers other hother
      rw [hcalls, List.map_append, List.map_singleton, List.mem_append, List.mem_singleton, not_or]
      exact ⟨h.gone other hother, hne⟩
    · intro other hother
      rw [hcalls, List.map_append, List.map_singleton, List.mem_append, List.mem_singleton] at hother
      obtain hother | hother | rfl := hother
      · exact h.made other (Or.inl (hhandlers other hother).2)
      · exact h.made other (Or.inr hother)
      · exact h.made other (Or.inl hid)

theorem Called.act (h : s.Called) (hact : Act deletes answer s t) : t.Called := by
  cases hact with
  | made handler =>
    refine ⟨h.handled, h.once, ?_, ?_⟩
    · intro id hid
      have hid : Function.update s.handlers s.created handler id = true := hid
      by_cases hnew : id = s.created
      · exact fun hmem => (h.made id (Or.inr hmem)).ne hnew
      · rw [Function.update_of_ne hnew] at hid
        exact h.gone id hid
    · intro id hid
      have hid : Function.update s.handlers s.created handler id = true ∨
        id ∈ s.calls.map HandlerCall.id := hid
      by_cases hnew : id = s.created
      · rw [hnew]
        exact Nat.lt_succ_self _
      · rw [Function.update_of_ne hnew] at hid
        exact (h.made id hid).trans (Nat.lt_succ_self _)
  | issued challenge stored => exact ⟨h.handled, h.once, h.gone, h.made⟩
  | dropped => exact ⟨h.handled, h.once, h.gone, h.made⟩
  | refused id hrefused => exact h.invoke id (refused_handled hrefused)
  | took id token granted declined hexpected first =>
    exact Called.invoke (s := { s with
      expectedChallenge := s.dropped deletes
      accepted := _
      currentAccessToken := some token }) ⟨h.handled, h.once, h.gone, h.made⟩ id
      (granting_handled id token granted declined)
  | asked r hexpected again user => exact ⟨h.handled, h.once, h.gone, h.made⟩
  | @validated r userID waits found same =>
    exact Called.invoke (s := { s with
      reauthentications := s.reauthentications.erase r
      currentAccessToken := some r.token }) ⟨h.handled, h.once, h.gone, h.made⟩ r.id
      (granting_handled r.id r.token r.grantedPermissions r.declinedPermissions)
  | rejected waits => exact ⟨h.handled, h.once, h.gone, h.made⟩

end Handlers

section Challenges

def successes (s : Logins) : ℕ :=
  s.calls.countP (fun call => call.result.any (fun result => result.token.isSome))

/-- A challenge is used once: those that were accepted, and the one that may still be, are
among those that were sent, in order; and every success has used one. -/
structure Spent (s : Logins) : Prop where
  sent : (s.accepted ++ s.expectedChallenge.toList).Sublist s.issued
  paid : s.successes + s.reauthentications.length ≤ s.accepted.length

theorem successes_invoke (s : Logins) (id : ℕ) (result : Option FBSDKLoginManagerLoginResult)
    (error : Option NSError) : (s.invoke id result error).successes ≤ s.successes +
      if result.any (fun result => result.token.isSome) then 1 else 0 := by
  unfold successes Logins.invoke
  dsimp only
  split_ifs <;> simp_all

theorem Spent.invoke {id : ℕ} {result : Option FBSDKLoginManagerLoginResult} {error : Option NSError}
    (hsent : (s.accepted ++ s.expectedChallenge.toList).Sublist s.issued)
    (hpaid : s.successes + (if result.any (fun result => result.token.isSome) then 1 else 0) +
      s.reauthentications.length ≤ s.accepted.length) : (s.invoke id result error).Spent :=
  ⟨hsent, (Nat.add_le_add_right (s.successes_invoke id result error) _).trans hpaid⟩

theorem refused_token {result : Option FBSDKLoginManagerLoginResult} {error : Option NSError}
    (h : Refused result error) : result.any (fun result => result.token.isSome) = false := by
  obtain ⟨rfl, -⟩ | ⟨⟨declined, rfl⟩, -⟩ := h
  · rfl
  · rfl

/-- Once it was accepted, a challenge that is dropped can be accepted no more. -/
theorem Spent.spend {challenge : String} (h : s.Spent) (hexpected : s.expectedChallenge = some challenge) :
    (s.accepted ++ [challenge] ++ (s.dropped true).toList).Sublist s.issued := by
  have hsent := h.sent
  rw [hexpected, Option.toList_some] at hsent
  rw [Logins.dropped, if_pos rfl, Option.toList_none, List.append_nil]
  exact hsent

theorem Spent.act (h : s.Spent) (hdeletes : deletes = true) (hact : Act deletes answer s t) :
    t.Spent := by
  subst hdeletes
  have haccepted : s.accepted.Sublist s.issued := (List.sublist_append_left _ _).trans h.sent
  have hpaid := h.paid
  cases hact with
  | made handler => exact ⟨h.sent, hpaid⟩
  | issued challenge stored =>
    refine ⟨?_, hpaid⟩
    cases stored with
    | true => exact haccepted.append_right _
    | false => exact h.sent.trans (List.sublist_append_left _ _)
  | dropped =>
    refine ⟨?_, hpaid⟩
    rw [Logins.dropped, if_pos rfl, Option.toList_none, List.append_nil]
    exact haccepted
  | refused id hrefused =>
    refine .invoke h.sent ?_
    rw [refused_token hrefused]
    exact hpaid
  | @took id challenge token granted declined hexpected first =>
    refine Spent.invoke (s := { s with
      expectedChallenge := s.dropped true
      accepted := s.accepted ++ [challenge]
      currentAccessToken := some token }) (h.spend hexpected) ?_
    have hsame : successes { s with
      expectedChallenge := s.dropped true
      accepted := s.accepted ++ [challenge]
      currentAccessToken := some token } = s.successes := rfl
    have hone : (granting token granted declined).any (fun result => result.token.isSome) = true := rfl
    rw [hsame, hone, if_pos rfl, List.length_append, List.length_singleton]
    dsimp only
    omega
  | @asked challenge current r hexpected again user =>
    refine ⟨h.spend hexpected, ?_⟩
    dsimp only
    rw [List.length_append, List.length_append, List.length_singleton, List.length_singleton,
      ← Nat.add_assoc]
    exact Nat.succ_le_succ hpaid
  | @validated r userID waits found same =>
    refine Spent.invoke (s := { s with
      reauthentications := s.reauthentications.erase r
      currentAccessToken := some r.token }) h.sent ?_
    have hsame : successes { s with
      reauthentications := s.reauthentications.erase r
      currentAccessToken := some r.token } = s.successes := rfl
    have hone : (granting r.token r.grantedPermissions r.declinedPermissions).any
      (fun result => result.token.isSome) = true := rfl
    have hpos : 0 < s.reauthentications.length := List.length_pos_of_mem waits
    rw [hsame, hone, if_pos rfl, List.length_erase_of_mem waits]
    dsimp only
    omega
  | @rejected r waits =>
    refine ⟨h.sent, ?_⟩
    have hle := (List.erase_sublist (a := r) (l := s.reauthentications)).length_le
    exact (Nat.add_le_add_left hle _).trans hpaid

end Challenges

section Users

/-- The user that a token is found to belong to is the one that it came with. -/
def Honest (answer : Option (Reauthentication × Option String)) : Prop :=
  ∀ r userID, answer = some (r, some userID) → r.token.userID = some userID

/-- The logins that are being checked are checked against the user who is logged in. -/
def Checked (s : Logins) : Prop :=
  ∀ r ∈ s.reauthentications, ∃ token, s.currentAccessToken = some token ∧
    r.currentUserID = token.userID

theorem Checked.act (h : s.Checked) (hanswer : Honest answer) (hact : Act deletes answer s t) :
    t.Checked := by
  cases hact with
  | made handler => exact h
  | issued challenge stored => exact h
  | dropped => exact h
  | refused id hrefused => exact h
  | took id token granted declined hexpected first =>
    intro r hr
    obtain ⟨current, hcurrent, -⟩ := h r hr
    rw [first] at hcurrent
    cases hcurrent
  | @asked challenge current r hexpected again user =>
    intro r' hr'
    obtain hr' | hr' := List.mem_append.mp hr'
    · exact h r' hr'
    · obtain rfl := List.mem_singleton.mp hr'
      exact ⟨current, again, user⟩
  | @validated r userID waits found same =>
    intro r' hr'
    refine ⟨r.token, rfl, ?_⟩
    obtain ⟨current, hcurrent, huser⟩ := h r waits
    obtain ⟨current', hcurrent', huser'⟩ := h r' (List.mem_of_mem_erase hr')
    obtain rfl := Option.some.inj (hcurrent.symm.trans hcurrent')
    rw [huser', ← huser, same, hanswer r userID found]
  | rejected waits => exact fun r' hr' => h r' (List.mem_of_mem_erase hr')

def LoggedIn (userID : Option String) (s : Logins) : Prop :=
  s.Checked ∧ ∃ token, s.currentAccessToken = some token ∧ token.userID = userID

theorem LoggedIn.act {userID : Option String} (h : s.LoggedIn userID) (hanswer : Honest answer)
    (hact : Act deletes answer s t) : t.LoggedIn userID := by
  refine ⟨h.1.act hanswer hact, ?_⟩
  obtain ⟨token, htoken, huser⟩ := h.2
  cases hact with
  | made handler => exact ⟨token, htoken, huser⟩
  | issued challenge stored => exact ⟨token, htoken, huser⟩
  | dropped => exact ⟨token, htoken, huser⟩
  | refused id hrefused => exact ⟨token, htoken, huser⟩
  | took id token' granted declined hexpected first =>
    rw [first] at htoken
    cases htoken
  | asked r hexpected again user => exact ⟨token, htoken, huser⟩
  | @validated r found waits hfound same =>
    obtain ⟨current, hcurrent, hcurrentUser⟩ := h.1 r waits
    obtain rfl := Option.some.inj (hcurrent.symm.trans htoken)
    refine ⟨r.token, rfl, ?_⟩
    rw [hanswer r found hfound, ← same, hcurrentUser, huser]
  | rejected waits => exact ⟨token, htoken, huser⟩

end Users

end Logins

namespace FacebookLogin

section Runs

variable (appID : String) (expectedChallenge : Option String)
  (cachedToken : Option FBSDKAccessToken)

/-- Throughout any run, with any number of logins at once, a handler is called once at most;
the closure never forces a value that is not there, and asks for the data of the user
exactly if the login granted the email address, with the token that is then in place. -/
theorem handlers_called (es : List FacebookEvent) :
    machine.Throughout (fun login => (∀ call ∈ login.calls, call.Handled) ∧
      (login.calls.map HandlerCall.id).Nodup) (launch appID expectedChallenge cachedToken) es := by
  intro before hb login hrun
  have hcalled : login.logins.Called := by
    refine Machine.invariant_of_actions (C := fun _ => True) step_chain
      (fun _ _ _ _ hact h => h.act hact) (fun _ _ => trivial) ?_ hrun
    refine ⟨(fun _ hcall => by cases hcall), List.nodup_nil, (fun _ hid => by cases hid), ?_⟩
    rintro id (hid | hid)
    · cases hid
    · cases hid
  exact ⟨hcalled.handled, hcalled.once⟩

/-- As long as the keychain lets go of what it is told to, each login that succeeds, or is
still checked, has used a challenge of its own, one that was sent and not used before. -/
theorem challenges_used_once {es : List FacebookEvent} {login : FacebookLogin}
    (hes : ∀ e ∈ es, FacebookEvent.deletes e = true)
    (h : machine.run (launch appID expectedChallenge cachedToken) es = some login) :
    login.accepted.Sublist login.issued ∧
      login.logins.successes + login.reauthentications.length ≤ login.accepted.length := by
  have hspent : login.logins.Spent := by
    refine Machine.invariant_of_actions (C := fun e => FacebookEvent.deletes e = true) step_chain
      (fun _ _ _ hdeletes hact h => h.act hdeletes hact) hes ?_ h
    exact ⟨List.Sublist.refl _, Nat.le_refl 0⟩
  exact ⟨(List.sublist_append_left _ _).trans hspent.sent, hspent.paid⟩

theorem challenges_used_once_login : ∃ login : FacebookLogin, login.accepted = ["c1"] ∧
    login.accepted.Sublist login.issued ∧
      login.logins.successes + login.reauthentications.length ≤ login.accepted.length := by
  let env : LoginEnvironment :=
    ⟨false, false, false, none, false, false, false, true, "c1", "c2", true, true, true⟩
  let url : CallbackURL := ⟨some "fb42", some "authorize", "com.apple.mobilesafari",
    ⟨some "token", some "email", none, none, some "7", none, none, some "c1"⟩⟩
  let es : List FacebookEvent := [.facebookAuthentication env, .openedURL (.browser 0) true env,
    .openURL url env]
  let start := launch "42" none none
  have h : (machine.run start es).isSome := by decide +kernel
  obtain ⟨login, hrun⟩ := Option.isSome_iff_exists.mp h
  have haccepted : (machine.run start es).map accepted = some ["c1"] := by decide +kernel
  rw [hrun] at haccepted
  have hdeletes : ∀ e ∈ es, FacebookEvent.deletes e = true := by
    intro e he
    simp only [es, List.mem_cons, List.not_mem_nil, or_false] at he
    obtain rfl | rfl | rfl := he <;> rfl
  exact ⟨login, Option.some.inj haccepted, challenges_used_once "42" none none hdeletes hrun⟩

end Runs

end FacebookLogin

end WhichStream.Facebook
