import WhichStream.Firebase.AuthSteps

/-!
A user that a sign-in flow is retrieving belongs to that flow alone, and is not the
current user: what the flow does to it shows in the session only when it ends.
-/

namespace WhichStream.Firebase

open EventMachine

def Completion.isAuth : Completion → Bool
  | .auth .. => true
  | .mail _ => false

def Request.looksUp (ref : Ref) : Request → Bool
  | .getAccountInfo _ _ r => r = ref
  | _ => false

-- The user that a closure taken from a token queue of `ref` is retrieving.
def Completion.retrieves (ref : Ref) (c : Completion) : Option Ref :=
  if c.isAuth then some ref else none

def holds (held : Option Ref) (ref : Ref) : ℕ := if held = some ref then 1 else 0

namespace FIRAuth

variable (auth : FIRAuth) {ref : Ref} {held : Option Ref} {f : SaveFaults}

def retrievals (ref : Ref) : ℕ :=
  (auth.users ref).tokenService.callbacks.countP Completion.isAuth +
    auth.requests.countP (Request.looksUp ref)

/-- `held` is the user of the flow whose closure is being run. -/
structure Retrieving (held : Option Ref) (auth : FIRAuth) : Prop where
  once : ∀ ref, auth.retrievals ref + holds held ref ≤ 1
  settled : ∀ ref, auth.currentUser = some ref → auth.retrievals ref + holds held ref = 0
  fresh : ∀ ref, auth.allocated ≤ ref → auth.retrievals ref + holds held ref = 0
  current : ∀ ref, auth.currentUser = some ref → ref < auth.allocated

namespace Retrieving

variable {a b : FIRAuth} {p : ℕ}

theorem ne_current (h : Retrieving (some ref) a) : a.currentUser ≠ some ref := by
  intro hcur
  have hz := h.settled ref hcur
  rw [holds, if_pos rfl] at hz
  omega

theorem allocated (h : Retrieving (some ref) a) : ref < a.allocated := by
  by_contra hle
  have hz := h.fresh ref (Nat.le_of_not_lt hle)
  rw [holds, if_pos rfl] at hz
  omega

/-- When what is held goes to the main queue, the user is no longer retrieved. -/
theorem released (h : Retrieving held a) : Retrieving none a where
  once ref := (Nat.le_add_right _ _).trans (h.once ref)
  settled ref hcur := Nat.eq_zero_of_add_eq_zero_right (h.settled ref hcur)
  fresh ref hle := Nat.eq_zero_of_add_eq_zero_right (h.fresh ref hle)
  current := h.current

theorem sameRetrievals (h : Retrieving held a) (hr : b.retrievals = a.retrievals)
    (hallocated : b.allocated = a.allocated)
    (hcur : ∀ ref, b.currentUser = some ref → a.currentUser = some ref) : Retrieving held b where
  once ref := by rw [hr]; exact h.once ref
  settled ref hb := by rw [hr]; exact h.settled ref (hcur ref hb)
  fresh ref hle := by rw [hr]; exact h.fresh ref (hallocated ▸ hle)
  current ref hb := by rw [hallocated]; exact h.current ref (hcur ref hb)

end Retrieving

end FIRAuth

theorem SameWork.retrievals {a b : FIRAuth} {p : ℕ} (h : SameWork p a b) :
    b.retrievals = a.retrievals := by
  funext ref
  rw [FIRAuth.retrievals, FIRAuth.retrievals, h.users, h.requests]

namespace FIRAuth

namespace Retrieving

variable {a b : FIRAuth} {ref : Ref} {held : Option Ref} {f : SaveFaults} {p : ℕ}

theorem sameWork (h : Retrieving held a) (hs : SameWork p a b)
    (hcur : ∀ ref, b.currentUser = some ref → a.currentUser = some ref) : Retrieving held b :=
  h.sameRetrievals hs.retrievals hs.allocated hcur

theorem signOutIfTokenIsInvalid (h : Retrieving held a) (other : Ref) (error : Option ErrorCode)
    (f : SaveFaults) : Retrieving held (a.signOutIfTokenIsInvalid other error f) := by
  refine h.sameWork (a.signOutIfTokenIsInvalid_sameWork other error f) ?_
  intro r hr
  have hs := a.signOutIfTokenIsInvalid_cases other error f
  generalize a.signOutIfTokenIsInvalid other error f = b at hs hr
  cases hs with
  | kept hk => exact hr
  | nobody hn => exact a.possiblyPost_currentUser ▸ hr
  | removed => simp [setCurrentUser] at hr
  | forced => simp [setCurrentUser] at hr

theorem updateKeychainWithUser (h : Retrieving held a) (other : Ref) (f : SaveFaults) :
    Retrieving held (a.updateKeychainWithUser other f).2 := by
  refine h.sameWork (a.updateKeychainWithUser_sameWork other f) ?_
  intro r hr
  obtain ⟨hk, -⟩ | ⟨-, ⟨-, hk⟩ | ⟨-, e, hk⟩⟩ := a.updateKeychainWithUser_cases other f
  · rwa [hk] at hr
  · rw [hk, possiblyPost_currentUser] at hr
    exact hr
  · rwa [hk] at hr

theorem updated {user : Option Ref} {force : Bool} {r : Except KeychainError Unit × FIRAuth}
    (hu : Updated a user force f r) : r.2.currentUser = user ∨ r.2.currentUser = a.currentUser := by
  cases hu with
  | same h => exact Or.inr (a.possiblyPost_currentUser)
  | saved h hf => exact Or.inl (possiblyPost_currentUser _)
  | forced h hf hforce => exact Or.inl (possiblyPost_currentUser _)
  | failed h hf hforce => exact Or.inr rfl

theorem callInMainThread (h : Retrieving held a) (call : Call) (k : ℕ) (outcome : Outcome) :
    Retrieving none (a.callInMainThread call k outcome) :=
  h.released.sameRetrievals rfl rfl (fun _ hr => hr)

theorem signedIn (h : Retrieving (some ref) a) {r : Except KeychainError Unit × FIRAuth}
    (hu : Updated a (some ref) false f r) : Retrieving none r.2 := by
  have hs := Updated.sameWork a hu
  obtain hcur | hcur := updated hu
  · have hzero : a.retrievals ref = 0 := by
      have hone := h.once ref
      rw [holds, if_pos rfl] at hone
      omega
    refine ⟨?_, ?_, ?_, ?_⟩
    · rw [hs.retrievals]
      exact h.released.once
    · intro other hother
      rw [hcur, Option.some.injEq] at hother
      rw [hs.retrievals, ← hother, hzero]
      rfl
    · rw [hs.retrievals, hs.allocated]
      exact h.released.fresh
    · intro other hother
      rw [hcur, Option.some.injEq] at hother
      rw [hs.allocated, ← hother]
      exact h.allocated
  · exact h.released.sameWork hs (fun other hother => hcur ▸ hother)

theorem completeSignIn {call : Call} {k : ℕ} {result : Except ErrorCode Ref}
    (h : Retrieving held a) (hresult : ∀ ref, result = .ok ref → held = some ref) :
    Retrieving none (a.completeSignIn call k result f) := by
  have hs := a.completeSignIn_cases call k result f
  generalize a.completeSignIn call k result f = b at hs
  cases hs with
  | reported hcall hresult => exact h.callInMainThread ..
  | @updated user mid hasks hu =>
    refine callInMainThread (?_ : Retrieving none mid) call k _
    obtain ⟨ref, hok, rfl⟩ | ⟨-, -, rfl⟩ := hasks
    · obtain rfl := hresult ref hok
      exact h.signedIn hu
    · refine h.released.sameWork (Updated.sameWork a hu) ?_
      intro other hother
      obtain hcur | hcur := updated hu
      · rw [hcur] at hother
        cases hother
      · exact hcur ▸ hother
  | failed hasks hne hf => exact h.callInMainThread ..

theorem request (h : Retrieving held a) {r : Request}
    (hr : ∀ other, (if r.looksUp other then 1 else 0) ≤ holds held other) :
    Retrieving none (a.request r) := by
  have hmove : ∀ other, (a.request r).retrievals other + holds none other ≤
      a.retrievals other + holds held other := by
    intro other
    have hcount : (a.request r).requests.countP (Request.looksUp other) =
        a.requests.countP (Request.looksUp other) + if r.looksUp other then 1 else 0 := by
      rw [FIRAuth.request, List.countP_append, List.countP_singleton]
    have hnone : holds none other = 0 := rfl
    have huser : (a.request r).users = a.users := rfl
    have hle := hr other
    rw [retrievals, retrievals, hcount, huser, hnone]
    omega
  refine ⟨fun other => (hmove other).trans (h.once other), ?_, ?_, h.current⟩
  · intro other hcur
    exact Nat.eq_zero_of_le_zero ((hmove other).trans (h.settled other hcur).le)
  · intro other hle
    exact Nat.eq_zero_of_le_zero ((hmove other).trans (h.fresh other hle).le)

theorem gotToken {c : Completion} {result : Except ErrorCode Unit} (h : Retrieving (c.retrieves ref) a) :
    Retrieving none (a.gotToken ref c result f) := by
  cases c with
  | auth call k =>
    cases result with
    | ok u =>
      have h : Retrieving (some ref) a := h
      apply request h
      intro other
      simp only [Request.looksUp, decide_eq_true_eq, holds, Option.some.injEq, le_refl]
    | error e =>
      have h : Retrieving (some ref) a := h
      exact completeSignIn h (fun _ he => by cases he)
  | mail m =>
    cases result with
    | ok u =>
      have h : Retrieving none a := h
      exact request h (fun other => le_rfl)
    | error e => exact h.released.sameRetrievals rfl rfl (fun _ hr => hr)

theorem internalGetTokenCallback {c : Completion} {result : FetchResult}
    (h : Retrieving (c.retrieves ref) a) :
    Retrieving none (a.internalGetTokenCallback ref c result f) := by
  unfold FIRAuth.internalGetTokenCallback
  split
  · next e _ => exact (h.signOutIfTokenIsInvalid ref (some e) f).gotToken
  · split_ifs
    · dsimp only
      split
      · exact (h.updateKeychainWithUser ref f).gotToken
      · exact (h.updateKeychainWithUser ref f).gotToken
    · exact h.gotToken

/-- Changing the token queue of one user changes what is retrieved of that user only. -/
theorem retrievals_setUser (a : FIRAuth) (ref other : Ref) (user : FIRUser Completion) :
    (a.setUser ref user).retrievals other = if other = ref then
      user.tokenService.callbacks.countP Completion.isAuth +
        a.requests.countP (Request.looksUp ref) else a.retrievals other := by
  split_ifs with hr
  · rw [hr, retrievals, setUser_self]
    rfl
  · rw [retrievals, retrievals, a.setUser_of_ne user hr]
    rfl

theorem setUser (h : Retrieving held a) {user : FIRUser Completion}
    (huser : user.tokenService.callbacks.countP Completion.isAuth =
      (a.users ref).tokenService.callbacks.countP Completion.isAuth) :
    Retrieving held (a.setUser ref user) := by
  refine h.sameRetrievals ?_ rfl (fun _ hr => hr)
  funext other
  rw [retrievals_setUser]
  split_ifs with hr
  · rw [hr, retrievals, huser]
  · rfl

theorem taken {c : Completion} {s : FIRSecureTokenService Completion} (h : Retrieving none a)
    (htaken : (a.users ref).tokenService.callbacks = c :: s.callbacks) :
    Retrieving (c.retrieves ref) (a.setTokenService ref s) := by
  have hmove : ∀ other, (a.setTokenService ref s).retrievals other + holds (c.retrieves ref) other =
      a.retrievals other + holds none other := by
    intro other
    unfold setTokenService
    rw [retrievals_setUser]
    by_cases hr : other = ref
    · rw [if_pos hr, hr, retrievals, htaken, List.countP_cons]
      cases c with
      | auth call k =>
        simp only [Completion.retrieves, Completion.isAuth, holds, if_true, reduceCtorEq, if_false]
        omega
      | mail m => rfl
    · rw [if_neg hr]
      cases c with
      | auth call k => simp [Completion.retrieves, Completion.isAuth, holds, Ne.symm hr]
      | mail m => rfl
  refine ⟨?_, ?_, ?_, h.current⟩
  · intro other
    exact (hmove other).trans_le (h.once other)
  · intro other hcur
    exact (hmove other).trans (h.settled other hcur)
  · intro other hle
    exact (hmove other).trans (h.fresh other hle)

theorem answered {m : FIRAuth} {r : Request} (h : Retrieving none a) (hm : a.answered r = some m)
    (hheld : ∀ other, holds held other = if r.looksUp other then 1 else 0) : Retrieving held m := by
  unfold FIRAuth.answered at hm
  split_ifs at hm with hr
  obtain rfl := Option.some.inj hm
  have hmove : ∀ other, retrievals { a with requests := a.requests.erase r } other +
      holds held other = a.retrievals other + holds none other := by
    intro other
    have hcount := (List.perm_cons_erase hr).countP_eq (Request.looksUp other)
    rw [List.countP_cons] at hcount
    have hnone : holds none other = 0 := rfl
    rw [hheld, hnone, retrievals, retrievals, hcount]
    dsimp only
    omega
  refine ⟨?_, ?_, ?_, h.current⟩
  · intro other
    exact (hmove other).trans_le (h.once other)
  · intro other hcur
    exact (hmove other).trans (h.settled other hcur)
  · intro other hle
    exact (hmove other).trans (h.fresh other hle)

theorem retrieveUser {call : Call} {k : ℕ} (h : Retrieving none a) (t : IssuedTokens) :
    Retrieving none (a.retrieveUser call k t) := by
  have hother : ∀ other, other ≠ a.allocated →
      (a.retrieveUser call k t).retrievals other = a.retrievals other := by
    intro other hne
    unfold FIRAuth.retrieveUser internalGetToken setTokenService
    rw [retrievals_setUser, if_neg hne]
    have hset := retrievals_setUser a a.allocated other (.initWithTokenService
      (.initWithTokens t.IDToken t.approximateExpirationDate t.refreshToken))
    rw [if_neg hne] at hset
    exact hset
  have hself : (a.retrieveUser call k t).retrievals a.allocated = 1 := by
    have hrequests : a.requests.countP (Request.looksUp a.allocated) = 0 := by
      have hz := h.fresh a.allocated le_rfl
      unfold retrievals at hz
      omega
    unfold FIRAuth.retrieveUser internalGetToken setTokenService
    rw [retrievals_setUser, if_pos rfl]
    dsimp only
    rw [FIRSecureTokenService.callbacks_fetch, setUser_self, List.countP_append]
    have hkeep : (a.setUser a.allocated (.initWithTokenService (.initWithTokens t.IDToken
      t.approximateExpirationDate t.refreshToken))).requests = a.requests := rfl
    rw [hkeep, hrequests]
    rfl
  have hne_current : a.currentUser ≠ some a.allocated := by
    intro hcur
    exact (h.current a.allocated hcur).false
  refine ⟨?_, ?_, ?_, ?_⟩
  · intro other
    by_cases hne : other = a.allocated
    · rw [hne, hself]
      exact le_rfl
    · rw [hother other hne]
      exact h.once other
  · intro other hcur
    have hcur : a.currentUser = some other := hcur
    have hne : other ≠ a.allocated := by
      rintro rfl
      exact hne_current hcur
    rw [hother other hne]
    exact h.settled other hcur
  · intro other hle
    have hlt : a.allocated < other := hle
    rw [hother other hlt.ne']
    exact h.fresh other hlt.le
  · intro other hcur
    exact (h.current other hcur).trans (Nat.lt_succ_self _)

theorem step {e : FIRAuthEvent} (h : Retrieving none a) (hu : machine.step a e = some b) :
    Retrieving none b := by
  cases e with
  | call call email password =>
    obtain rfl := Option.some.inj hu
    have hstart : Retrieving none (a.start call) := h.sameRetrievals rfl rfl (fun _ hr => hr)
    have hsent : Retrieving none ((a.start call).request (.tokens call a.started)) :=
      hstart.request (fun _ => le_rfl)
    unfold signInWithEmail
    cases call with
    | signIn =>
      dsimp only
      split_ifs
      · exact hstart.callInMainThread ..
      · exact hsent
    | createUser =>
      dsimp only
      split_ifs
      · exact hstart.callInMainThread ..
      · exact hstart.callInMainThread ..
      · exact hsent
  | sendEmailVerification ref =>
    have hu : (if ref < a.allocated then some (a.startMail.internalGetToken ref (.mail a.mails))
      else none) = some b := hu
    split_ifs at hu with hr
    obtain rfl := Option.some.inj hu
    have hstart : Retrieving none a.startMail := h.sameRetrievals rfl rfl (fun _ hr => hr)
    refine hstart.setUser ?_
    dsimp only
    rw [FIRSecureTokenService.callbacks_fetch, List.countP_append]
    rfl
  | signOut f =>
    have hu : (if a.currentUser.isNone then some a
      else some (a.updateCurrentUser none false true f).2) = some b := hu
    split_ifs at hu
    · obtain rfl := Option.some.inj hu
      exact h
    · obtain rfl := Option.some.inj hu
      have hupdated := a.updateCurrentUser_cases none false f
      refine h.sameWork (Updated.sameWork a hupdated) ?_
      intro other hother
      obtain hcur | hcur := updated hupdated
      · rw [hcur] at hother
        cases hother
      · exact hcur ▸ hother
  | tokens call k result =>
    obtain ⟨m, hm, rfl⟩ := Option.map_eq_some_iff.mp hu
    have hanswered : Retrieving none m := h.answered hm (fun _ => rfl)
    cases result with
    | error e => exact hanswered.callInMainThread ..
    | ok t => exact hanswered.retrieveUser t
  | runTask ref now =>
    obtain ⟨⟨outcome, s⟩, hr, rfl⟩ := Option.map_eq_some_iff.mp hu
    obtain ⟨-, ⟨c, rfl, -, htaken⟩ | ⟨rfl, hcallbacks⟩⟩ := FIRSecureTokenService.runTask_cases hr
    · have hnext : Retrieving none ((a.setTokenService ref s).internalGetTokenCallback ref c
          ⟨(a.users ref).tokenService.accessToken, none, false⟩ ⟨none, none⟩) :=
        (h.taken htaken).internalGetTokenCallback
      exact hnext
    · exact h.setUser (congrArg (List.countP Completion.isAuth) hcallbacks)
  | requestCompleted ref result f =>
    obtain ⟨⟨⟨c, fetched⟩, s⟩, hr, rfl⟩ := Option.map_eq_some_iff.mp hu
    obtain ⟨htaken, -⟩ := FIRSecureTokenService.requestCompleted_cases hr
    exact (h.taken htaken).internalGetTokenCallback
  | gotAccountInfo call k ref result f =>
    obtain ⟨m, hm, rfl⟩ := Option.map_eq_some_iff.mp hu
    have hanswered : Retrieving (some ref) m := by
      apply h.answered hm
      intro other
      simp only [Request.looksUp, decide_eq_true_eq, holds, Option.some.injEq]
    cases result with
    | error e => exact hanswered.completeSignIn (fun _ he => by cases he)
    | ok account =>
      have hlooked : Retrieving (some ref) (m.lookedUp ref account) := hanswered.setUser rfl
      exact hlooked.completeSignIn (fun r hr => congrArg some (Except.ok.inj hr))
  | gotOOBConfirmationCode k ref error f =>
    obtain ⟨m, hm, rfl⟩ := Option.map_eq_some_iff.mp hu
    have hanswered : Retrieving none m := h.answered hm (fun _ => rfl)
    exact (hanswered.signOutIfTokenIsInvalid ref error f).sameRetrievals rfl rfl (fun _ hr => hr)
  | main =>
    have hu : a.step .main = some b := hu
    unfold FIRAuth.step at hu
    dsimp only at hu
    split at hu
    · cases hu
    · obtain rfl := Option.some.inj hu
      exact h.sameRetrievals rfl rfl (fun _ hr => hr)

theorem launch (firebaseAppName : String) (taggedPointer : String → Bool)
    (keychain : FIRAuthKeychain KeyedArchives.Archive) (reads : FIRAuthKeychain.ReadFaults) :
    Retrieving none (launch firebaseAppName taggedPointer keychain reads) := by
  obtain ⟨-, h⟩ | ⟨user, huser, h⟩ := launch_cases firebaseAppName taggedPointer keychain reads
  · rw [h]
    exact ⟨fun _ => Nat.zero_le 1, fun _ _ => rfl, fun _ _ => rfl, fun _ hcur => by cases hcur⟩
  · rw [h]
    refine sameWork (p := 1) ?_ (possiblyPost_sameWork _) (fun r hr => possiblyPost_currentUser _ ▸ hr)
    have hnone : ∀ ref, retrievals (setCurrentUser { ((initWithAPIKey firebaseAppName taggedPointer
        keychain).getUser reads).2.setUser 0 user with allocated := 1 } (some 0)) ref = 0 := by
      intro ref
      have hset := retrievals_setUser ((initWithAPIKey firebaseAppName taggedPointer
        keychain).getUser reads).2 0 ref user
      rw [getUser_callbacks reads huser] at hset
      refine Eq.trans ?_ (hset.trans (ite_self 0))
      rfl
    refine ⟨fun ref => ?_, fun ref _ => hnone ref, fun ref _ => hnone ref, ?_⟩
    · rw [hnone ref]
      exact Nat.zero_le 1
    · intro ref hcur
      obtain rfl := Option.some.inj hcur
      exact Nat.lt_succ_self 0

end Retrieving

end FIRAuth

end WhichStream.Firebase
