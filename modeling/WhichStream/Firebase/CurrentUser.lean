import WhichStream.Firebase.Relaunch

/-!
Who is signed in, step by step, and when the listeners of the state are behind.
-/

namespace WhichStream.Firebase

open EventMachine KeyedArchives

namespace FIRAuth

variable {a b : FIRAuth} {f : SaveFaults} {ref : Ref} {call : Call} {k : ℕ} {c : Completion}

section Changes

/-- The events that change the current user: a sign-out and a sign-in that the keychain
takes, an error that revokes the token of the current user, and a sign-up whose account
cannot be looked up. -/
def Changes (auth : FIRAuth) : FIRAuthEvent → Prop
  | .signOut f => auth.currentUser ≠ none ∧ f.save = none
  | .requestCompleted ref (.error e) f => auth.Revokes ref (some e) ∨
    ∃ c rest, (auth.users ref).tokenService.callbacks = c :: rest ∧ auth.Clears c f
  | .gotAccountInfo call k _ (.error _) f => auth.Clears (.auth call k) f
  | .gotAccountInfo _ _ _ (.ok _) f => f.save = none
  | .gotOOBConfirmationCode _ ref error _ => auth.Revokes ref error
  | _ => False

/-- The current user is set to `user` exactly if `C` holds. -/
structure Sets (C : Prop) (user : Option Ref) (a b : FIRAuth) : Prop where
  set : C → a.currentUser ≠ user ∧ b.currentUser = user
  kept : ¬C → b.currentUser = a.currentUser

theorem Sets.changes {C : Prop} {user : Option Ref} (h : Sets C user a b) :
    b.currentUser ≠ a.currentUser ↔ C := by
  by_cases hC : C
  · obtain ⟨hne, hset⟩ := h.set hC
    rw [hset]
    exact iff_of_true hne.symm hC
  · exact iff_of_false (fun hne => hne (h.kept hC)) hC

theorem Sets.of_updated {user : Option Ref} {r : Except KeychainError Unit × FIRAuth}
    (hu : Updated a user false f r) :
    Sets (user ≠ a.currentUser ∧ f.save = none) user a r.2 := by
  cases hu with
  | same h => exact ⟨fun hC => absurd h hC.1, fun _ => possiblyPost_currentUser a⟩
  | saved h hf => exact ⟨fun _ => ⟨h.symm, possiblyPost_currentUser _⟩, fun hC => absurd ⟨h, hf⟩ hC⟩
  | forced h hf hforce => cases hforce
  | failed h hf hforce => exact ⟨fun hC => absurd hC.2 hf, fun _ => rfl⟩

theorem signOutIfTokenIsInvalid_sets (a : FIRAuth) (ref : Ref) (error : Option ErrorCode)
    (f : SaveFaults) :
    Sets (a.Revokes ref error) none a (a.signOutIfTokenIsInvalid ref error f) := by
  have hs := a.signOutIfTokenIsInvalid_cases ref error f
  generalize a.signOutIfTokenIsInvalid ref error f = b at hs
  cases hs with
  | kept h => exact ⟨fun hr => absurd hr.2 h, fun _ => rfl⟩
  | nobody h => exact ⟨fun hr => absurd h hr.1, fun _ => possiblyPost_currentUser a⟩
  | removed h herror hsame hf =>
    exact ⟨fun _ => ⟨h, possiblyPost_currentUser _⟩, fun hr => absurd ⟨h, herror, hsame⟩ hr⟩
  | forced h herror hsame hf =>
    exact ⟨fun _ => ⟨h, possiblyPost_currentUser _⟩, fun hr => absurd ⟨h, herror, hsame⟩ hr⟩

theorem completeSignIn_error_sets (a : FIRAuth) (call : Call) (k : ℕ) (e : ErrorCode)
    (f : SaveFaults) :
    Sets (a.Clears (.auth call k) f) none a (a.completeSignIn call k (.error e) f) := by
  cases call with
  | signIn =>
    refine ⟨?_, fun _ => rfl⟩
    rintro ⟨⟨j, hj⟩, -⟩
    cases hj
  | createUser =>
    have hsets := Sets.of_updated (a.updateCurrentUser_cases none false f)
    have hclears : none ≠ a.currentUser ∧ f.save = none ↔ a.Clears (.auth .createUser k) f :=
      ⟨fun h => ⟨⟨k, rfl⟩, h.1.symm, h.2⟩, fun h => ⟨h.2.1.symm, h.2.2⟩⟩
    have hcur : (a.completeSignIn .createUser k (.error e) f).currentUser =
        (a.updateCurrentUser none false true f).2.currentUser := by
      unfold completeSignIn signInFlowCallback
      dsimp only
      split <;> rfl
    rw [hclears] at hsets
    exact ⟨fun h => hcur ▸ hsets.set h, fun h => hcur.trans (hsets.kept h)⟩

theorem completeSignIn_ok_sets (a : FIRAuth) (call : Call) (k : ℕ) (ref : Ref) (f : SaveFaults) :
    Sets (some ref ≠ a.currentUser ∧ f.save = none) (some ref) a
      (a.completeSignIn call k (.ok ref) f) := by
  have hsets := Sets.of_updated (a.updateCurrentUser_cases (some ref) false f)
  have hcur : (a.completeSignIn call k (.ok ref) f).currentUser =
      (a.updateCurrentUser (some ref) false true f).2.currentUser := by
    unfold completeSignIn signInFlowCallback
    cases call <;> (dsimp only; split <;> rfl)
  exact ⟨fun h => hcur ▸ hsets.set h, fun h => hcur.trans (hsets.kept h)⟩

theorem gotToken_error_sets (a : FIRAuth) (ref : Ref) (c : Completion) (e : ErrorCode)
    (f : SaveFaults) : Sets (a.Clears c f) none a (a.gotToken ref c (.error e) f) := by
  cases c with
  | auth call k => exact a.completeSignIn_error_sets call k e f
  | mail m =>
    refine ⟨?_, fun _ => rfl⟩
    rintro ⟨⟨k, hk⟩, -⟩
    cases hk

theorem updateKeychainWithUser_currentUser (a : FIRAuth) (ref : Ref) (f : SaveFaults) :
    (a.updateKeychainWithUser ref f).2.currentUser = a.currentUser := by
  obtain ⟨h, -⟩ | ⟨-, ⟨-, h⟩ | ⟨-, e, h⟩⟩ := a.updateKeychainWithUser_cases ref f
  · rw [h]
  · rw [h]
    exact possiblyPost_currentUser _
  · rw [h]

theorem internalGetTokenCallback_error_sets (a : FIRAuth) (ref : Ref) (c : Completion)
    {result : FetchResult} {e : ErrorCode} (hresult : result.error = some e) (f : SaveFaults) :
    Sets (a.Revokes ref (some e) ∨ a.Clears c f) none a
      (a.internalGetTokenCallback ref c result f) := by
  unfold internalGetTokenCallback
  rw [hresult]
  dsimp only
  have hout := a.signOutIfTokenIsInvalid_sets ref (some e) f
  have hgot := (a.signOutIfTokenIsInvalid ref (some e) f).gotToken_error_sets ref c e f
  by_cases hr : a.Revokes ref (some e)
  · obtain ⟨hne, hnone⟩ := hout.set hr
    refine ⟨fun _ => ⟨hne, ?_⟩, fun hn => absurd (Or.inl hr) hn⟩
    exact (hgot.kept (fun hc => hc.2.1 hnone)).trans hnone
  · have hcur := hout.kept hr
    have hclears : (a.signOutIfTokenIsInvalid ref (some e) f).Clears c f ↔ a.Clears c f := by
      rw [Clears, hcur, Clears]
    rw [hclears] at hgot
    refine ⟨?_, ?_⟩
    · intro hC
      have hset := hgot.set (hC.resolve_left hr)
      rw [hcur] at hset
      exact hset
    · intro hn
      exact (hgot.kept (fun hc => hn (Or.inr hc))).trans hcur

/-- A token for a sign-in flow never comes with an error of the keychain, so what is done
with it leaves the current user. -/
theorem internalGetTokenCallback_ok_currentUser {result : FetchResult}
    (hresult : result.error = none) (hr : Retrieving (c.retrieves ref) a) (f : SaveFaults) :
    (a.internalGetTokenCallback ref c result f).currentUser = a.currentUser := by
  have hok : ∀ b : FIRAuth, (b.gotToken ref c (.ok ()) f).currentUser = b.currentUser := by
    intro b
    cases c <;> rfl
  unfold internalGetTokenCallback
  rw [hresult]
  dsimp only
  split_ifs
  · split
    · exact (hok _).trans (a.updateKeychainWithUser_currentUser ref f)
    · next e he =>
      cases c with
      | mail m => exact a.updateKeychainWithUser_currentUser ref f
      | auth call k =>
        obtain ⟨hu, -⟩ | ⟨hcur, -⟩ := a.updateKeychainWithUser_cases ref f
        · rw [hu] at he
          cases he
        · exact absurd hcur hr.ne_current
  · exact hok a

theorem changes_step {e : FIRAuthEvent} (hr : Retrieving none a) (hu : machine.step a e = some b) :
    b.currentUser ≠ a.currentUser ↔ a.Changes e := by
  have hsame : ∀ {b : FIRAuth}, b.currentUser = a.currentUser → ¬a.Changes e →
      (b.currentUser ≠ a.currentUser ↔ a.Changes e) :=
    fun hcur hnot => iff_of_false (fun hne => hne hcur) hnot
  cases e with
  | call call email password =>
    obtain rfl := Option.some.inj hu
    exact hsame (a.signInWithEmail_sameFile call email password).currentUser not_false
  | sendEmailVerification ref =>
    have hu : (if ref < a.allocated then some (a.startMail.internalGetToken ref (.mail a.mails))
      else none) = some b := hu
    split_ifs at hu
    obtain rfl := Option.some.inj hu
    exact hsame rfl not_false
  | signOut f =>
    have hu : (if a.currentUser.isNone then some a
      else some (a.updateCurrentUser none false true f).2) = some b := hu
    split_ifs at hu with hnone
    · obtain rfl := Option.some.inj hu
      exact hsame rfl (fun hn => hn.1 (Option.isNone_iff_eq_none.mp hnone))
    · obtain rfl := Option.some.inj hu
      refine (Sets.of_updated (a.updateCurrentUser_cases none false f)).changes.trans ?_
      exact and_congr ne_comm Iff.rfl
  | tokens call k result =>
    obtain ⟨m, hm, rfl⟩ := Option.map_eq_some_iff.mp hu
    have hanswered := (answered_sameFile hm).1.currentUser
    refine hsame ?_ not_false
    cases result with
    | error e => exact hanswered
    | ok t => exact hanswered
  | runTask ref now =>
    obtain ⟨⟨outcome, s⟩, hrun, rfl⟩ := Option.map_eq_some_iff.mp hu
    refine hsame ?_ not_false
    obtain ⟨-, ⟨c, rfl, -, htaken⟩ | ⟨rfl, -⟩⟩ := FIRSecureTokenService.runTask_cases hrun
    · exact internalGetTokenCallback_ok_currentUser (a := a.setTokenService ref s) rfl
        (hr.taken htaken) ⟨none, none⟩
    · rfl
  | requestCompleted ref result f =>
    obtain ⟨⟨⟨c, fetched⟩, s⟩, hrun, rfl⟩ := Option.map_eq_some_iff.mp hu
    obtain ⟨htaken, hresult⟩ := FIRSecureTokenService.requestCompleted_cases hrun
    obtain ⟨e, rfl, rfl, -⟩ | ⟨response, rfl, rfl, -⟩ := hresult
    · have herror : (⟨none, some e, false⟩ : FetchResult).error = some e := rfl
      have hsets := (a.setTokenService ref s).internalGetTokenCallback_error_sets ref c herror f
      refine hsets.changes.trans ?_
      have hrevokes : (a.setTokenService ref s).Revokes ref (some e) ↔ a.Revokes ref (some e) := by
        unfold Revokes
        rw [a.setTokenService_sameUserID ref s]
        exact Iff.rfl
      refine or_congr hrevokes ?_
      constructor
      · exact fun hc => ⟨c, s.callbacks, htaken, hc⟩
      · rintro ⟨c', rest, hc, hclears⟩
        rw [htaken, List.cons.injEq] at hc
        rw [hc.1]
        exact hclears
    · refine hsame ?_ not_false
      exact internalGetTokenCallback_ok_currentUser (a := a.setTokenService ref s) rfl
        (hr.taken htaken) f
  | gotAccountInfo call k ref result f =>
    obtain ⟨m, hm, rfl⟩ := Option.map_eq_some_iff.mp hu
    have hcur := (answered_sameFile hm).1.currentUser
    cases result with
    | error e =>
      have hsets := m.completeSignIn_error_sets call k e f
      have hclears : m.Clears (.auth call k) f ↔ a.Clears (.auth call k) f := by
        rw [Clears, hcur, Clears]
      rw [hclears] at hsets
      rw [← hcur]
      exact hsets.changes
    | ok account =>
      have hretrieving : Retrieving (some ref) m := by
        apply hr.answered hm
        intro other
        simp only [Request.looksUp, decide_eq_true_eq, holds, Option.some.injEq]
      have hne : some ref ≠ (m.lookedUp ref account).currentUser := hretrieving.ne_current.symm
      have hsets := (m.lookedUp ref account).completeSignIn_ok_sets call k ref f
      have hlooked : (m.lookedUp ref account).currentUser = a.currentUser := hcur
      rw [← hlooked]
      exact hsets.changes.trans (and_iff_right hne)
  | gotOOBConfirmationCode k ref error f =>
    obtain ⟨m, hm, rfl⟩ := Option.map_eq_some_iff.mp hu
    obtain ⟨hanswered, husers, htagged⟩ := answered_sameFile hm
    have hrevokes : m.Revokes ref error ↔ a.Revokes ref error := by
      rw [Revokes, sameUserID, husers, hanswered.currentUser, htagged, Revokes, sameUserID]
    have hsets := m.signOutIfTokenIsInvalid_sets ref error f
    rw [hrevokes] at hsets
    rw [← hanswered.currentUser]
    exact hsets.changes
  | main =>
    have hu : a.step .main = some b := hu
    unfold step at hu
    dsimp only at hu
    split at hu
    · cases hu
    · obtain rfl := Option.some.inj hu
      exact hsame rfl not_false

end Changes

section Listeners

/-- The events after which the listeners do not know the token of the current user: it was
refreshed and could not be saved. -/
def Unheard (auth : FIRAuth) : FIRAuthEvent → Prop
  | .requestCompleted ref (.ok response) f => auth.currentUser = some ref ∧
    (auth.users ref).tokenService.accessToken ≠ some response.accessToken ∧ f.save ≠ none
  | _ => False

theorem Notified.congr (hlast : b.lastNotifiedUserToken = a.lastNotifiedUserToken)
    (hcur : b.currentUser = a.currentUser)
    (husers : ∀ ref, a.currentUser = some ref →
      (b.users ref).tokenService.accessToken = (a.users ref).tokenService.accessToken) :
    b.Notified ↔ a.Notified := by
  have hraw : b.rawAccessToken = a.rawAccessToken := by
    unfold rawAccessToken
    rw [hcur]
    cases hc : a.currentUser with
    | none => rfl
    | some ref => exact husers ref hc
  rw [Notified, hlast, hraw, Notified]

theorem Notified.updated {user : Option Ref} {force : Bool} {r : Except KeychainError Unit × FIRAuth}
    (h : a.Notified) (hu : Updated a user force f r) : r.2.Notified := by
  cases hu with
  | same hcur => exact possiblyPost_notified _
  | saved hcur hf => exact possiblyPost_notified _
  | forced hcur hf hforce => exact possiblyPost_notified _
  | failed hcur hf hforce => exact h

theorem Notified.signOutIfTokenIsInvalid (h : a.Notified) (ref : Ref) (error : Option ErrorCode)
    (f : SaveFaults) : (a.signOutIfTokenIsInvalid ref error f).Notified := by
  have hs := a.signOutIfTokenIsInvalid_cases ref error f
  generalize a.signOutIfTokenIsInvalid ref error f = b at hs
  cases hs with
  | kept hk => exact h
  | nobody hn => exact possiblyPost_notified _
  | removed => exact possiblyPost_notified _
  | forced => exact possiblyPost_notified _

theorem Notified.completeSignIn {result : Except ErrorCode Ref} (h : a.Notified) (call : Call)
    (k : ℕ) (f : SaveFaults) : (a.completeSignIn call k result f).Notified := by
  have hs := a.completeSignIn_cases call k result f
  generalize a.completeSignIn call k result f = b at hs
  cases hs with
  | reported hcall hresult => exact h
  | @updated user mid hasks hu => exact h.updated hu
  | failed hasks hne hf => exact h

theorem Notified.gotToken {result : Except ErrorCode Unit} (h : a.Notified) (ref : Ref)
    (c : Completion) (f : SaveFaults) : (a.gotToken ref c result f).Notified := by
  cases c with
  | auth call k =>
    cases result with
    | ok u => exact h
    | error e => exact h.completeSignIn call k f
  | mail m => cases result <;> exact h

theorem Notified.internalGetTokenCallback {result : FetchResult} (h : a.Notified) (ref : Ref)
    (c : Completion) (f : SaveFaults) : (a.internalGetTokenCallback ref c result f).Notified := by
  unfold FIRAuth.internalGetTokenCallback
  split
  · next e _ => exact (h.signOutIfTokenIsInvalid ref (some e) f).gotToken ref c f
  · split_ifs
    · have hsaved : (a.updateKeychainWithUser ref f).2.Notified := by
        obtain ⟨hu, -⟩ | ⟨-, ⟨-, hu⟩ | ⟨-, e, hu⟩⟩ := a.updateKeychainWithUser_cases ref f
        · rw [hu]
          exact h
        · rw [hu]
          exact possiblyPost_notified _
        · rw [hu]
          exact h
      dsimp only
      split
      · exact hsaved.gotToken ref c f
      · exact hsaved.gotToken ref c f
    · exact h.gotToken ref c f

/-- The tokens of the current user are new: the listeners hear of them if they are saved. -/
theorem internalGetTokenCallback_refreshed {result : FetchResult} (hcur : a.currentUser = some ref)
    (hunheard : ¬a.Notified) (hresult : result.error = none) (hupdated : result.tokenUpdated = true)
    (hr : Retrieving (c.retrieves ref) a) :
    (a.internalGetTokenCallback ref c result f).Notified ↔ f.save = none := by
  unfold FIRAuth.internalGetTokenCallback
  rw [hresult, hupdated, if_pos rfl]
  dsimp only
  obtain ⟨-, hne⟩ | ⟨-, ⟨hf, hu⟩ | ⟨hf, e, hu⟩⟩ := a.updateKeychainWithUser_cases ref f
  · exact absurd hcur hne
  · rw [hu]
    exact iff_of_true ((possiblyPost_notified _).gotToken ref c f) hf
  · rw [hu]
    refine iff_of_false ?_ hf
    cases c with
    | mail m => exact hunheard
    | auth call k => exact absurd hcur hr.ne_current

theorem setTokenService_accessToken (a : FIRAuth) {s : FIRSecureTokenService Completion}
    (h : s.accessToken = (a.users ref).tokenService.accessToken) (r : Ref) :
    ((a.setTokenService ref s).users r).tokenService.accessToken =
      (a.users r).tokenService.accessToken := by
  by_cases hne : r = ref
  · rw [hne, setTokenService_self]
    exact h
  · rw [a.setTokenService_of_ne s hne]

theorem answered_notified {m : FIRAuth} {r : Request} (hm : a.answered r = some m) :
    m.Notified ↔ a.Notified := by
  unfold answered at hm
  split_ifs at hm
  obtain rfl := Option.some.inj hm
  exact Iff.rfl

theorem notified_step {e : FIRAuthEvent} (hr : Retrieving none a) (h : a.Notified)
    (hu : machine.step a e = some b) : b.Notified ↔ ¬a.Unheard e := by
  cases e with
  | call call email password =>
    obtain rfl := Option.some.inj hu
    refine iff_of_true ?_ not_false
    unfold signInWithEmail
    cases call with
    | signIn =>
      dsimp only
      split_ifs <;> exact h
    | createUser =>
      dsimp only
      split_ifs <;> exact h
  | sendEmailVerification ref =>
    have hu : (if ref < a.allocated then some (a.startMail.internalGetToken ref (.mail a.mails))
      else none) = some b := hu
    split_ifs at hu
    obtain rfl := Option.some.inj hu
    have haccess : ((a.startMail.users ref).tokenService.fetchAccessToken false
      (.mail a.mails)).accessToken = (a.startMail.users ref).tokenService.accessToken := rfl
    have hfetch : (a.startMail.internalGetToken ref (.mail a.mails)).Notified ↔ a.Notified :=
      Notified.congr rfl rfl (fun r _ => a.startMail.setTokenService_accessToken haccess r)
    exact iff_of_true (hfetch.mpr h) not_false
  | signOut f =>
    refine iff_of_true ?_ not_false
    have hu : (if a.currentUser.isNone then some a
      else some (a.updateCurrentUser none false true f).2) = some b := hu
    split_ifs at hu
    · obtain rfl := Option.some.inj hu
      exact h
    · obtain rfl := Option.some.inj hu
      exact h.updated (a.updateCurrentUser_cases none false f)
  | tokens call k result =>
    obtain ⟨m, hm, rfl⟩ := Option.map_eq_some_iff.mp hu
    have hanswered : m.Notified := (answered_notified hm).mpr h
    refine iff_of_true ?_ not_false
    cases result with
    | error e => exact hanswered
    | ok t =>
      have hretrieved : (m.retrieveUser call k t).Notified ↔ m.Notified := by
        refine Notified.congr rfl rfl ?_
        intro r hcur
        have hretrieving : Retrieving none m := hr.answered hm (fun _ => rfl)
        have hne : r ≠ m.allocated := (hretrieving.current r hcur).ne
        unfold retrieveUser internalGetToken
        rw [setTokenService_of_ne _ _ hne]
        exact congrArg (fun u => u.tokenService.accessToken) (m.setUser_of_ne _ hne)
      exact hretrieved.mpr hanswered
  | runTask ref now =>
    obtain ⟨⟨outcome, s⟩, hrun, rfl⟩ := Option.map_eq_some_iff.mp hu
    refine iff_of_true ?_ not_false
    obtain ⟨htokens, hcases⟩ := FIRSecureTokenService.runTask_cases hrun
    have haccess : s.accessToken = (a.users ref).tokenService.accessToken :=
      congrArg (fun t => t.1) htokens
    have hservice : (a.setTokenService ref s).Notified ↔ a.Notified :=
      Notified.congr rfl rfl (fun r _ => a.setTokenService_accessToken haccess r)
    obtain ⟨c, rfl, -, -⟩ | ⟨rfl, -⟩ := hcases
    · exact (hservice.mpr h).internalGetTokenCallback ref c _
    · exact hservice.mpr h
  | requestCompleted ref result f =>
    obtain ⟨⟨⟨c, fetched⟩, s⟩, hrun, rfl⟩ := Option.map_eq_some_iff.mp hu
    obtain ⟨htaken, hresult⟩ := FIRSecureTokenService.requestCompleted_cases hrun
    obtain ⟨e, rfl, rfl, htokens⟩ | ⟨response, rfl, rfl, -⟩ := hresult
    · have haccess : s.accessToken = (a.users ref).tokenService.accessToken :=
        congrArg (fun t => t.1) htokens
      have hservice : (a.setTokenService ref s).Notified ↔ a.Notified :=
        Notified.congr rfl rfl (fun r _ => a.setTokenService_accessToken haccess r)
      exact iff_of_true ((hservice.mpr h).internalGetTokenCallback ref c f) not_false
    · have haccess := FIRSecureTokenService.requestCompleted_accessToken hrun
      by_cases hcur : a.currentUser = some ref
      · by_cases hsame : (a.users ref).tokenService.accessToken = some response.accessToken
        · have hservice : (a.setTokenService ref s).Notified ↔ a.Notified := Notified.congr rfl rfl
            (fun r _ => a.setTokenService_accessToken (haccess.trans hsame.symm) r)
          exact iff_of_true ((hservice.mpr h).internalGetTokenCallback ref c f)
            (fun hn => hn.2.1 hsame)
        · have hunheard : ¬(a.setTokenService ref s).Notified := by
            intro hn
            have hraw : a.rawAccessToken = (a.users ref).tokenService.accessToken := by
              rw [rawAccessToken, hcur]
              rfl
            have hraw' : (a.setTokenService ref s).rawAccessToken = s.accessToken := by
              have hcur' : (a.setTokenService ref s).currentUser = some ref := hcur
              rw [rawAccessToken, hcur', Option.bind_some, setTokenService_self]
            have hlast : a.lastNotifiedUserToken = s.accessToken := hn.trans hraw'
            exact hsame ((hraw.symm.trans (h.symm.trans hlast)).trans haccess)
          have hchanged : s.tokens ≠ (a.users ref).tokenService.tokens := by
            intro htokens
            exact hsame ((congrArg (fun t => t.1) htokens).symm.trans haccess)
          have hnone : (⟨some response.accessToken, none, decide (s.tokens ≠
              (a.users ref).tokenService.tokens)⟩ : FetchResult).error = none := rfl
          refine (internalGetTokenCallback_refreshed (a := a.setTokenService ref s) hcur hunheard
            hnone (decide_eq_true hchanged) (hr.taken htaken)).trans ?_
          constructor
          · exact fun hf hn => hn.2.2 hf
          · exact fun hn => by_contra (fun hf => hn ⟨hcur, hsame, hf⟩)
      · have hservice : (a.setTokenService ref s).Notified ↔ a.Notified := by
          refine Notified.congr rfl rfl ?_
          intro r hr'
          have hne : r ≠ ref := fun hr => hcur (hr ▸ hr')
          rw [a.setTokenService_of_ne s hne]
        exact iff_of_true ((hservice.mpr h).internalGetTokenCallback ref c f)
          (fun hn => hcur hn.1)
  | gotAccountInfo call k ref result f =>
    obtain ⟨m, hm, rfl⟩ := Option.map_eq_some_iff.mp hu
    have hanswered : m.Notified := (answered_notified hm).mpr h
    refine iff_of_true ?_ not_false
    cases result with
    | error e => exact hanswered.completeSignIn call k f
    | ok account =>
      have hlooked : (m.lookedUp ref account).Notified ↔ m.Notified := by
        refine Notified.congr rfl rfl ?_
        intro r _
        by_cases hne : r = ref
        · rw [hne, lookedUp, setUser_self]
          rfl
        · rw [lookedUp, m.setUser_of_ne _ hne]
      exact (hlooked.mpr hanswered).completeSignIn call k f
  | gotOOBConfirmationCode k ref error f =>
    obtain ⟨m, hm, rfl⟩ := Option.map_eq_some_iff.mp hu
    have hanswered : m.Notified := (answered_notified hm).mpr h
    exact iff_of_true (hanswered.signOutIfTokenIsInvalid ref error f) not_false
  | main =>
    have hu : a.step .main = some b := hu
    unfold step at hu
    dsimp only at hu
    split at hu
    · cases hu
    · obtain rfl := Option.some.inj hu
      exact iff_of_true h not_false

end Listeners

section Runs

variable (firebaseAppName : String) (taggedPointer : String → Bool)
  (keychain : FIRAuthKeychain Archive) (reads : FIRAuthKeychain.ReadFaults)

theorem launch_notified : (launch firebaseAppName taggedPointer keychain reads).Notified := by
  obtain ⟨-, h⟩ | ⟨user, -, h⟩ := launch_cases firebaseAppName taggedPointer keychain reads
  · rw [h]
    rfl
  · rw [h]
    exact possiblyPost_notified _

end Runs

end FIRAuth

end WhichStream.Firebase
