import Mathlib.Tactic.Abel
import WhichStream.Firebase.Callbacks
import WhichStream.Firebase.Retrievals

/-!
FirebaseAuth is the session that the screens rely on, as long as no account that was just
signed up fails to be looked up: what it logs is then a run of the abstract session.
-/

namespace WhichStream.Firebase

open EventMachine

def Completion.numbers : Completion → Multiset ℕ
  | .auth _ k => {k}
  | .mail _ => 0

def Block.answers : Block → List ℕ
  | .completion _ k _ => [k]
  | _ => []

theorem Block.numbers_completed (queue : List Block) :
    (queue.flatMap Block.completed : Multiset Completion).bind Completion.numbers =
      ↑(queue.flatMap Block.answers) := by
  induction queue with
  | nil => rfl
  | cons block queue ih =>
    rw [List.flatMap_cons, List.flatMap_cons, ← Multiset.coe_add, ← Multiset.coe_add,
      Multiset.add_bind, ih]
    cases block <;> rfl

namespace FIRAuth

variable {a b : FIRAuth} {S : Session} {held : Multiset ℕ} {session : Option User} {f : SaveFaults}
  {call : Call} {k : ℕ} {c : Completion} {p : ℕ}

/-- What the abstract session says of a state; `held` numbers the call whose closure is being
run. -/
structure Shows (S : Session) (auth : FIRAuth) (held : Multiset ℕ) : Prop where
  currentUser : S.currentUser = auth.session
  started : S.started = auth.started
  waiting : (S.waiting : Multiset ℕ) + ↑(S.answered.map Prod.fst) =
    auth.waiting.bind Completion.numbers + held
  answered : S.answered.map Prod.fst = auth.mainQueue.flatMap Block.answers

def Honours (session : Option User) (held : Multiset ℕ) (auth : FIRAuth) : Prop :=
  ∃ S, Session.machine.run (Session.launch session) auth.log = some S ∧ Shows S auth held

theorem Shows.mem_waiting (h : Shows S a (k ::ₘ held)) : k ∈ S.waiting := by
  have hsum := h.waiting
  rw [h.answered, FIRAuth.waiting, Multiset.add_bind, Block.numbers_completed, add_right_comm,
    add_left_inj] at hsum
  rw [← Multiset.mem_coe, hsum]
  exact Multiset.mem_add.mpr (Or.inr (Multiset.mem_cons_self k held))

namespace Honours

/-- A step that logs nothing and moves no answer. -/
theorem silent {held' : Multiset ℕ} (h : Honours session held a) (hlog : b.log = a.log)
    (hsession : b.session = a.session) (hstarted : b.started = a.started)
    (hwaiting : b.waiting.bind Completion.numbers + held' =
      a.waiting.bind Completion.numbers + held)
    (hqueue : b.mainQueue.flatMap Block.answers = a.mainQueue.flatMap Block.answers) :
    Honours session held' b := by
  obtain ⟨S, hrun, hs⟩ := h
  refine ⟨S, by rw [hlog]; exact hrun, ?_⟩
  exact ⟨hs.currentUser.trans hsession.symm, hs.started.trans hstarted.symm,
    hs.waiting.trans hwaiting.symm, hs.answered.trans hqueue.symm⟩

theorem logged {e : SessionEvent} {S' : Session} {held' : Multiset ℕ}
    (hrun : Session.machine.run (Session.launch session) a.log = some S)
    (hlog : b.log = a.log ++ [e]) (hstep : Session.machine.step S e = some S')
    (hshows : Shows S' b held') : Honours session held' b := by
  refine ⟨S', ?_, hshows⟩
  rw [hlog]
  exact Session.machine.run_concat_some.mpr ⟨S, hrun, hstep⟩

end Honours

end FIRAuth

theorem SameWork.answers {a b : FIRAuth} {p : ℕ} (h : SameWork p a b) :
    b.mainQueue.flatMap Block.answers = a.mainQueue.flatMap Block.answers := by
  obtain ⟨n, -, hn⟩ := h.posted
  rw [hn, List.flatMap_append, List.flatMap_replicate]
  simp [Block.answers]

theorem SameWork.session {a b : FIRAuth} {p : ℕ} (h : SameWork p a b)
    (hcur : b.currentUser = a.currentUser) : b.session = a.session := by
  have huser : b.user = a.user := by
    funext ref
    rw [FIRAuth.user, FIRAuth.user, h.users]
  rw [FIRAuth.session, FIRAuth.session, hcur, huser]

namespace FIRAuth

variable {a b : FIRAuth} {S : Session} {held : Multiset ℕ} {session : Option User} {f : SaveFaults}
  {call : Call} {k : ℕ} {c : Completion} {p : ℕ}

namespace Honours

theorem sameWork (h : Honours session held a) (hs : SameWork p a b) (hlog : b.log = a.log)
    (hcur : b.currentUser = a.currentUser) : Honours session held b :=
  h.silent hlog (hs.session hcur) hs.started (by rw [hs.waiting]) hs.answers

theorem signedOut (h : Honours session held a) (hs : SameWork p a b)
    (hlog : b.log = a.log ++ [.signedOut]) (hcur : b.currentUser = none) :
    Honours session held b := by
  obtain ⟨S, hrun, hshows⟩ := h
  have hnone : none = b.session := by
    rw [FIRAuth.session, hcur]
    rfl
  have hshows' : Shows { S with currentUser := none } b held :=
    ⟨hnone, hshows.started.trans hs.started.symm, by rw [hs.waiting]; exact hshows.waiting,
      hshows.answered.trans hs.answers.symm⟩
  exact logged hrun hlog rfl hshows'

theorem callInMainThread (h : Honours session (k ::ₘ held) a) (result : AuthResult)
    {outcome : Outcome} (hlog : b.log = a.log) (hwaiting : b.waiting = a.waiting)
    (hstarted : b.started = a.started)
    (hqueue : b.mainQueue.flatMap Block.answers = a.mainQueue.flatMap Block.answers)
    (hevent : b.event k outcome = .answer k result)
    (hcur : b.session = Auth.updateCurrentUser a.session result) :
    Honours session held (b.callInMainThread call k outcome) := by
  obtain ⟨S, hrun, hshows⟩ := h
  have hmem := hshows.mem_waiting
  have hstep : Session.machine.step S (.answer k result) = some { S with
      currentUser := Auth.updateCurrentUser S.currentUser result
      waiting := S.waiting.erase k
      answered := S.answered ++ [(k, result)] } := if_pos hmem
  refine logged (a := a) hrun ?_ hstep ?_
  · rw [FIRAuth.callInMainThread, hevent, hlog]
  · refine ⟨?_, ?_, ?_, ?_⟩
    · rw [hshows.currentUser]
      exact hcur.symm
    · exact hshows.started.trans hstarted.symm
    · have hsum := hshows.waiting
      have hcons : (S.waiting : Multiset ℕ) = k ::ₘ ↑(S.waiting.erase k) :=
        Multiset.coe_eq_coe.mpr (List.perm_cons_erase hmem)
      have hawaits := (b.callInMainThread_awaits call k outcome).waiting
      rw [hcons, Multiset.cons_add, Multiset.add_cons, Multiset.cons_inj_right] at hsum
      dsimp only
      rw [hawaits, hwaiting, Multiset.cons_bind, List.map_append, ← Multiset.coe_add, ← add_assoc,
        hsum, Completion.numbers, add_comm, add_assoc]
      rfl
    · have hadded : (b.callInMainThread call k outcome).mainQueue.flatMap Block.answers =
          b.mainQueue.flatMap Block.answers ++ [k] := by
        rw [FIRAuth.callInMainThread, List.flatMap_append]
        rfl
      rw [hadded, hqueue, List.map_append, hshows.answered]
      rfl

theorem error (h : Honours session (k ::ₘ held) a) (e : ErrorCode) :
    Honours session held (a.callInMainThread call k (.error e)) :=
  h.callInMainThread .error rfl rfl rfl rfl rfl rfl

theorem user (h : Honours session (k ::ₘ held) a) {ref : Ref} {mid : FIRAuth}
    (hu : Updated a (some ref) false f (.ok (), mid)) :
    Honours session held (mid.callInMainThread call k (.authResult (some ref))) := by
  have hs := Updated.sameWork a hu
  have hmid : mid.log = a.log ∧ mid.currentUser = some ref := by
    cases hu with
    | same hcur => exact ⟨a.possiblyPost_log, a.possiblyPost_currentUser.trans hcur.symm⟩
    | saved hcur hf => exact ⟨possiblyPost_log _, possiblyPost_currentUser _⟩
  have hsession : mid.session = some (mid.user ref) := by
    rw [FIRAuth.session, hmid.2]
    rfl
  exact h.callInMainThread (.user (mid.user ref)) hmid.1 hs.waiting hs.started hs.answers
    rfl hsession

theorem not_withoutUser (l : List SessionEvent) (hlog : a.log = l ++ [.answerWithoutUser k]) :
    ¬Honours session held a := by
  rintro ⟨S, hrun, -⟩
  rw [hlog] at hrun
  obtain ⟨T, -, hstep⟩ := Session.machine.run_concat_some.mp hrun
  cases hstep

end Honours

/-- Whether signing out would succeed. -/
def Removes (auth : FIRAuth) (f : SaveFaults) : Prop := auth.currentUser = none ∨ f.save = none

theorem completeSignIn_honours {result : Except ErrorCode Ref}
    (h : Honours session (k ::ₘ held) a) :
    Honours session held (a.completeSignIn call k result f) ↔
      ¬(call = .createUser ∧ (∃ e, result = .error e) ∧ a.Removes f) := by
  have hs := a.completeSignIn_cases call k result f
  generalize a.completeSignIn call k result f = b at hs
  cases hs with
  | reported hcall hresult =>
    refine iff_of_true (h.error _) ?_
    rintro ⟨hcreate, -⟩
    rw [hcall] at hcreate
    cases hcreate
  | @updated user mid hasks hu =>
    obtain ⟨ref, hok, rfl⟩ | ⟨hcreate, hresult, rfl⟩ := hasks
    · refine iff_of_true (h.user hu) ?_
      rintro ⟨-, ⟨e, he⟩, -⟩
      rw [hok] at he
      cases he
    · refine iff_of_false (Honours.not_withoutUser mid.log rfl) ?_
      rw [not_not]
      refine ⟨hcreate, hresult, ?_⟩
      cases hu with
      | same hcur => exact Or.inl hcur.symm
      | saved hcur hf => exact Or.inr hf
  | failed hasks hne hf =>
    refine iff_of_true (h.error _) ?_
    rintro ⟨hcreate, ⟨e', he'⟩, hnone | hsave⟩
    · obtain ⟨ref, hok, -⟩ | ⟨-, -, rfl⟩ := hasks
      · rw [hok] at he'
        cases he'
      · exact hne hnone.symm
    · exact hf hsave

theorem signOutIfTokenIsInvalid_removes (a : FIRAuth) (ref : Ref) (error : Option ErrorCode)
    (f : SaveFaults) : (a.signOutIfTokenIsInvalid ref error f).Removes f ↔
      a.Removes f ∨ error.any invalidatesToken = true ∧ a.sameUserID ref = true := by
  have hs := a.signOutIfTokenIsInvalid_cases ref error f
  generalize a.signOutIfTokenIsInvalid ref error f = b at hs
  cases hs with
  | kept hk => exact (or_iff_left hk).symm
  | nobody hn =>
    exact iff_of_true (Or.inl ((possiblyPost_currentUser a).trans hn)) (Or.inl (Or.inl hn))
  | removed h herror hsame hf =>
    exact iff_of_true (Or.inl (possiblyPost_currentUser _)) (Or.inr ⟨herror, hsame⟩)
  | forced h herror hsame hf =>
    exact iff_of_true (Or.inl (possiblyPost_currentUser _)) (Or.inr ⟨herror, hsame⟩)

theorem Honours.signOutIfTokenIsInvalid (h : Honours session held a) (ref : Ref)
    (error : Option ErrorCode) (f : SaveFaults) :
    Honours session held (a.signOutIfTokenIsInvalid ref error f) := by
  have hwork := a.signOutIfTokenIsInvalid_sameWork ref error f
  have hs := a.signOutIfTokenIsInvalid_cases ref error f
  generalize a.signOutIfTokenIsInvalid ref error f = b at hs hwork
  cases hs with
  | kept hk => exact h
  | nobody hn => exact h.sameWork hwork (possiblyPost_log _) (possiblyPost_currentUser _)
  | removed => exact h.signedOut hwork (possiblyPost_log _) (possiblyPost_currentUser _)
  | forced => exact h.signedOut hwork (possiblyPost_log _) (possiblyPost_currentUser _)

theorem Honours.updateKeychainWithUser (h : Honours session held a) (ref : Ref) (f : SaveFaults) :
    Honours session held (a.updateKeychainWithUser ref f).2 := by
  have hwork := a.updateKeychainWithUser_sameWork ref f
  obtain ⟨hk, -⟩ | ⟨-, ⟨-, hk⟩ | ⟨-, e, hk⟩⟩ := a.updateKeychainWithUser_cases ref f
  · rw [hk]
    exact h
  · rw [hk] at hwork ⊢
    exact h.sameWork hwork (possiblyPost_log _) (possiblyPost_currentUser _)
  · rw [hk]
    exact h

theorem Honours.request {r : Request} (h : Honours session (r.completion.numbers + held) a) :
    Honours session held (a.request r) := by
  refine h.silent rfl rfl rfl ?_ rfl
  rw [(a.request_awaits r).waiting, Multiset.cons_bind]
  abel

theorem Honours.callInMainThreadWithError {m : ℕ} (h : Honours session held a)
    (error : Option ErrorCode) : Honours session held (a.callInMainThreadWithError m error) := by
  refine h.silent rfl rfl rfl ?_ ?_
  · rw [(a.callInMainThreadWithError_awaits m error).waiting, Multiset.cons_bind,
      Completion.numbers, zero_add]
  · rw [FIRAuth.callInMainThreadWithError, List.flatMap_append]
    exact List.append_nil _

theorem gotToken_honours {ref : Ref} {result : Except ErrorCode Unit}
    (h : Honours session (c.numbers + held) a) :
    Honours session held (a.gotToken ref c result f) ↔
      ¬((∃ k, c = .auth .createUser k) ∧ (∃ e, result = .error e) ∧ a.Removes f) := by
  cases c with
  | auth call k =>
    cases result with
    | ok u =>
      refine iff_of_true (h.request (r := .getAccountInfo call k ref)) ?_
      rintro ⟨-, ⟨e, he⟩, -⟩
      cases he
    | error e =>
      refine (completeSignIn_honours h).trans (not_congr ?_)
      refine and_congr ?_ (and_congr ?_ Iff.rfl)
      · constructor
        · rintro rfl
          exact ⟨k, rfl⟩
        · rintro ⟨j, hj⟩
          exact (Completion.auth.inj hj).1
      · exact ⟨fun _ => ⟨e, rfl⟩, fun _ => ⟨e, rfl⟩⟩
  | mail m =>
    have hnone : Honours session held a := by
      rw [Completion.numbers, zero_add] at h
      exact h
    refine iff_of_true ?_ (by rintro ⟨⟨k, hk⟩, -⟩; cases hk)
    cases result with
    | ok u => exact h.request (r := .getOOBConfirmationCode m ref)
    | error e => exact hnone.callInMainThreadWithError _

theorem internalGetTokenCallback_honours {ref : Ref} {result : FetchResult}
    (h : Honours session (c.numbers + held) a) (hr : Retrieving (c.retrieves ref) a) :
    Honours session held (a.internalGetTokenCallback ref c result f) ↔
      ¬((∃ k, c = .auth .createUser k) ∧ ∃ e, result.error = some e ∧
        (a.Removes f ∨ invalidatesToken e = true ∧ a.sameUserID ref = true)) := by
  unfold internalGetTokenCallback
  split
  · next e he =>
    refine (gotToken_honours (h.signOutIfTokenIsInvalid ref (some e) f)).trans (not_congr ?_)
    refine and_congr Iff.rfl ?_
    rw [signOutIfTokenIsInvalid_removes, he]
    constructor
    · rintro ⟨-, hremoves⟩
      exact ⟨e, rfl, hremoves⟩
    · rintro ⟨e', he', hremoves⟩
      obtain rfl := Option.some.inj he'
      exact ⟨⟨e, rfl⟩, hremoves⟩
  · next hnone =>
    refine iff_of_true ?_ (by rintro ⟨-, e, he, -⟩; rw [hnone] at he; cases he)
    have hready : ∀ {b : FIRAuth}, Honours session (c.numbers + held) b →
        Honours session held (b.gotToken ref c (.ok ()) f) := by
      intro b hb
      refine (gotToken_honours hb).mpr ?_
      rintro ⟨-, ⟨e, he⟩, -⟩
      cases he
    split_ifs
    · have hkeychain := h.updateKeychainWithUser ref f
      dsimp only
      split
      · exact hready hkeychain
      · next e he =>
        refine (gotToken_honours hkeychain).mpr ?_
        rintro ⟨⟨k, rfl⟩, -⟩
        -- A user that is being retrieved is not saved, so saving it cannot fail.
        have hne : a.currentUser ≠ some ref := hr.ne_current
        obtain ⟨hk, -⟩ | ⟨hcur, -⟩ := a.updateKeychainWithUser_cases ref f
        · rw [hk] at he
          cases he
        · exact hne hcur
    · exact hready h

theorem setUser_session {ref : Ref} {user : FIRUser Completion}
    (h : a.currentUser = some ref → user.userID = (a.users ref).userID ∧
      user.emailVerified = (a.users ref).emailVerified) :
    (a.setUser ref user).session = a.session := by
  unfold session
  have hcur : (a.setUser ref user).currentUser = a.currentUser := rfl
  rw [hcur]
  cases hc : a.currentUser with
  | none => rfl
  | some r =>
    refine congrArg some ?_
    unfold FIRAuth.user
    by_cases hr : r = ref
    · obtain ⟨huid, hverified⟩ := h (by rw [hc, hr])
      rw [hr, setUser_self, huid, hverified]
    · rw [a.setUser_of_ne user hr]

theorem Honours.taken {ref : Ref} {s : FIRSecureTokenService Completion} (hacc : a.Accounted)
    (h : Honours session held a) (htaken : (a.users ref).tokenService.callbacks = c :: s.callbacks) :
    Honours session (c.numbers + held) (a.setTokenService ref s) := by
  have hr : ref < a.allocated := hacc.allocated (by rw [htaken]; exact List.cons_ne_nil _ _)
  refine h.silent rfl (setUser_session (fun _ => ⟨rfl, rfl⟩)) rfl ?_ rfl
  rw [a.taken_waiting hr htaken, Multiset.cons_bind]
  abel

theorem Honours.answered {m : FIRAuth} {r : Request} (h : Honours session held a)
    (hm : a.answered r = some m) : Honours session (r.completion.numbers + held) m := by
  have hwaiting := a.answered_waiting hm
  unfold FIRAuth.answered at hm
  split_ifs at hm
  obtain rfl := Option.some.inj hm
  refine h.silent rfl rfl rfl ?_ rfl
  rw [hwaiting, Multiset.cons_bind]
  abel

theorem answered_currentUser (a : FIRAuth) {m : FIRAuth} {r : Request} (hm : a.answered r = some m) :
    m.currentUser = a.currentUser := by
  unfold FIRAuth.answered at hm
  split_ifs at hm
  obtain rfl := Option.some.inj hm
  rfl

theorem Honours.retrieveUser (h : Honours session (k ::ₘ held) a) (hr : Retrieving none a)
    (t : IssuedTokens) : Honours session held (a.retrieveUser call k t) := by
  obtain ⟨hwaiting, -⟩ := a.retrieveUser_awaits call k t
  refine h.silent rfl ?_ rfl ?_ rfl
  · have hcur : (a.retrieveUser call k t).currentUser = a.currentUser := rfl
    unfold FIRAuth.session
    rw [hcur]
    cases hc : a.currentUser with
    | none => rfl
    | some r =>
      have hne : r ≠ a.allocated := (hr.current r hc).ne
      have huser : (a.retrieveUser call k t).users r = a.users r := by
        unfold FIRAuth.retrieveUser internalGetToken
        rw [setTokenService_of_ne _ _ hne]
        exact a.setUser_of_ne _ hne
      refine congrArg some ?_
      rw [FIRAuth.user, huser, FIRAuth.user]
  · rw [hwaiting, Multiset.cons_bind, Completion.numbers, Multiset.singleton_add,
      Multiset.cons_add, Multiset.add_cons]

theorem Honours.start (h : Honours session held a) (call : Call) :
    Honours session (a.started ::ₘ held) (a.start call) := by
  obtain ⟨S, hrun, hs⟩ := h
  have hshows : Shows { S with started := S.started + 1, waiting := S.waiting ++ [S.started] }
      (a.start call) (a.started ::ₘ held) := by
    refine ⟨hs.currentUser, congrArg (· + 1) hs.started, ?_, hs.answered⟩
    dsimp only
    rw [← Multiset.coe_add, add_right_comm, hs.waiting, hs.started, Multiset.coe_singleton,
      ← Multiset.singleton_add, add_assoc, add_comm held]
    rfl
  exact Honours.logged hrun rfl rfl hshows

theorem Honours.signInWithEmail (h : Honours session held a) (call : Call) (email password : Text) :
    Honours session held (a.signInWithEmail call email password) := by
  have hstart := h.start call
  have hsent : Honours session held ((a.start call).request (.tokens call a.started)) :=
    Honours.request (by rw [Request.completion, Completion.numbers, Multiset.singleton_add]; exact hstart)
  unfold FIRAuth.signInWithEmail
  cases call with
  | signIn =>
    dsimp only
    split_ifs
    · exact hstart.error _
    · exact hsent
  | createUser =>
    dsimp only
    split_ifs
    · exact hstart.error _
    · exact hstart.error _
    · exact hsent

theorem waiting_numbers (a : FIRAuth) : a.waiting.bind Completion.numbers =
    (↑(a.requests.map Request.completion) + a.fetching).bind Completion.numbers +
      ↑(a.mainQueue.flatMap Block.answers) := by
  rw [waiting, Multiset.add_bind, Block.numbers_completed]

theorem main_waiting {block : Block} {rest : List Block} (h : a.mainQueue = block :: rest) :
    a.waiting.bind Completion.numbers = ↑block.answers +
      (waiting { a with mainQueue := rest }).bind Completion.numbers := by
  rw [waiting_numbers, waiting_numbers, h, List.flatMap_cons, ← Multiset.coe_add, add_left_comm]
  rfl

theorem Honours.called {block : Block} {rest : List Block} (h : Honours session held a)
    (hqueue : a.mainQueue = block :: rest) (hblock : block.answers = []) :
    Honours session held { a with mainQueue := rest, calledBack := a.calledBack ++ [block] } := by
  refine h.silent rfl rfl rfl ?_ ?_
  · rw [main_waiting hqueue, hblock, Multiset.coe_nil, zero_add]
    rfl
  · rw [hqueue, List.flatMap_cons, hblock]
    rfl

theorem Honours.main (h : Honours session held a) (hu : machine.step a .main = some b) :
    Honours session held b := by
  have hu : a.step .main = some b := hu
  unfold step at hu
  dsimp only at hu
  split at hu
  · cases hu
  · next block rest hqueue =>
    obtain rfl := Option.some.inj hu
    cases block with
    | stateDidChange => exact h.called hqueue rfl
    | mailCompletion m error => exact h.called hqueue rfl
    | completion call k outcome =>
      obtain ⟨S, hrun, hs⟩ := h
      have hfirst := hs.answered
      rw [hqueue, List.flatMap_cons, Block.answers, List.singleton_append] at hfirst
      obtain ⟨⟨j, result⟩, left, hanswered, hj, hleft⟩ := List.map_eq_cons_iff.mp hfirst
      obtain rfl : j = k := hj
      have hstep : Session.machine.step S (.callback j) = some { S with answered := left } := by
        have hdef : Session.machine.step S (.callback j) = S.step (.callback j) := rfl
        rw [hdef, Session.step, hanswered]
        exact if_pos rfl
      refine Honours.logged hrun rfl hstep ⟨hs.currentUser, hs.started, ?_, hleft⟩
      have hsum := hs.waiting
      rw [main_waiting hqueue, hanswered, List.map_cons, ← Multiset.cons_coe, Multiset.add_cons,
        Block.answers, Multiset.coe_singleton, Multiset.singleton_add, Multiset.cons_add,
        Multiset.cons_inj_right] at hsum
      exact hsum

/-- The events that leave the app with neither a user nor an error: a sign-up whose account
cannot be looked up, unless the user of before cannot be signed out. -/
def Loses (auth : FIRAuth) : FIRAuthEvent → Prop
  | .requestCompleted ref (.error e) f =>
    (∃ k rest, (auth.users ref).tokenService.callbacks = .auth .createUser k :: rest) ∧
      (auth.Removes f ∨ invalidatesToken e = true ∧ auth.sameUserID ref = true)
  | .gotAccountInfo .createUser _ _ (.error _) f => auth.Removes f
  | _ => False

theorem honours_step {e : FIRAuthEvent} (hacc : a.Accounted) (hr : Retrieving none a)
    (h : Honours session 0 a) (hu : machine.step a e = some b) :
    Honours session 0 b ↔ ¬a.Loses e := by
  cases e with
  | call call email password =>
    obtain rfl := Option.some.inj hu
    exact iff_of_true (h.signInWithEmail call email password) not_false
  | sendEmailVerification ref =>
    have hu : (if ref < a.allocated then some (a.startMail.internalGetToken ref (.mail a.mails))
      else none) = some b := hu
    split_ifs at hu with hallocated
    obtain rfl := Option.some.inj hu
    refine iff_of_true ?_ not_false
    refine h.silent rfl (setUser_session (fun _ => ⟨rfl, rfl⟩)) rfl ?_ rfl
    rw [(a.startMail.internalGetToken_awaits hallocated (.mail a.mails)).waiting, Multiset.cons_bind,
      Completion.numbers, zero_add]
    rfl
  | signOut f =>
    refine iff_of_true ?_ not_false
    have hu : (if a.currentUser.isNone then some a
      else some (a.updateCurrentUser none false true f).2) = some b := hu
    split_ifs at hu
    · obtain rfl := Option.some.inj hu
      exact h
    · obtain rfl := Option.some.inj hu
      have hwork := Updated.sameWork a (a.updateCurrentUser_cases none false f)
      have hupdated := a.updateCurrentUser_cases none false f
      generalize a.updateCurrentUser none false true f = r at hupdated hwork
      cases hupdated with
      | same hcur => exact h.sameWork hwork (possiblyPost_log _) (possiblyPost_currentUser _)
      | saved hcur hf => exact h.signedOut hwork (possiblyPost_log _) (possiblyPost_currentUser _)
      | forced hcur hf hforce => cases hforce
      | failed hcur hf hforce => exact h
  | tokens call k result =>
    obtain ⟨m, hm, rfl⟩ := Option.map_eq_some_iff.mp hu
    refine iff_of_true ?_ not_false
    have hanswered : Honours session (k ::ₘ 0) m := h.answered hm
    cases result with
    | error e => exact hanswered.error e
    | ok t => exact hanswered.retrieveUser (hr.answered hm (fun _ => rfl)) t
  | runTask ref now =>
    obtain ⟨⟨outcome, s⟩, hrun, rfl⟩ := Option.map_eq_some_iff.mp hu
    refine iff_of_true ?_ not_false
    obtain ⟨-, ⟨c, rfl, -, htaken⟩ | ⟨rfl, hcallbacks⟩⟩ := FIRSecureTokenService.runTask_cases hrun
    · have hnext : Honours session 0 ((a.setTokenService ref s).internalGetTokenCallback ref c
          ⟨(a.users ref).tokenService.accessToken, none, false⟩ ⟨none, none⟩) := by
        refine (internalGetTokenCallback_honours (h.taken hacc htaken) (hr.taken htaken)).mpr ?_
        rintro ⟨-, e, he, -⟩
        cases he
      exact hnext
    · refine h.silent rfl (setUser_session (fun _ => ⟨rfl, rfl⟩)) rfl ?_ rfl
      exact congrArg (fun w => Multiset.bind w Completion.numbers + 0) (a.setUser_waiting hcallbacks)
  | requestCompleted ref result f =>
    obtain ⟨⟨⟨c, fetched⟩, s⟩, hrun, rfl⟩ := Option.map_eq_some_iff.mp hu
    obtain ⟨htaken, hresult⟩ := FIRSecureTokenService.requestCompleted_cases hrun
    refine (internalGetTokenCallback_honours (h.taken hacc htaken) (hr.taken htaken)).trans
      (not_congr ?_)
    have hsame := a.setTokenService_sameUserID ref s
    obtain ⟨e, rfl, rfl, -⟩ | ⟨response, rfl, rfl, -⟩ := hresult
    · rw [hsame]
      constructor
      · rintro ⟨⟨k, rfl⟩, e', he', hremoves⟩
        obtain rfl := Option.some.inj he'
        exact ⟨⟨k, s.callbacks, htaken⟩, hremoves⟩
      · rintro ⟨⟨k, rest, hcallbacks⟩, hremoves⟩
        rw [htaken, List.cons.injEq] at hcallbacks
        exact ⟨⟨k, hcallbacks.1⟩, e, rfl, hremoves⟩
    · exact iff_of_false (by rintro ⟨-, e, he, -⟩; cases he) not_false
  | gotAccountInfo call k ref result f =>
    obtain ⟨m, hm, rfl⟩ := Option.map_eq_some_iff.mp hu
    have hanswered : Honours session (k ::ₘ 0) m := h.answered hm
    cases result with
    | error e =>
      refine (completeSignIn_honours hanswered).trans (not_congr ?_)
      have hremoves : m.Removes f ↔ a.Removes f := by rw [Removes, a.answered_currentUser hm, Removes]
      cases call with
      | signIn => exact iff_of_false (by rintro ⟨hcall, -⟩; cases hcall) not_false
      | createUser =>
        rw [hremoves]
        exact ⟨fun h => h.2.2, fun h => ⟨rfl, ⟨e, rfl⟩, h⟩⟩
    | ok account =>
      have hretrieving : Retrieving (some ref) m := by
        apply hr.answered hm
        intro other
        simp only [Request.looksUp, decide_eq_true_eq, holds, Option.some.injEq]
      have hlooked : Honours session (k ::ₘ 0) (m.lookedUp ref account) :=
        hanswered.silent rfl (setUser_session (fun hcur => absurd hcur hretrieving.ne_current)) rfl
          (congrArg (fun w => Multiset.bind w Completion.numbers + (k ::ₘ 0)) (m.setUser_waiting rfl))
          rfl
      refine (completeSignIn_honours hlooked).trans (not_congr ?_)
      refine iff_of_false (by rintro ⟨-, ⟨e, he⟩, -⟩; cases he) ?_
      cases call <;> exact not_false
  | gotOOBConfirmationCode k ref error f =>
    obtain ⟨m, hm, rfl⟩ := Option.map_eq_some_iff.mp hu
    refine iff_of_true ?_ not_false
    have hanswered : Honours session 0 m := h.answered hm
    exact (hanswered.signOutIfTokenIsInvalid ref error f).callInMainThreadWithError error
  | main => exact iff_of_true (h.main hu) not_false

section Runs

variable (firebaseAppName : String) (taggedPointer : String → Bool)
  (keychain : FIRAuthKeychain KeyedArchives.Archive) (reads : FIRAuthKeychain.ReadFaults)

theorem launch_idle : let start := launch firebaseAppName taggedPointer keychain reads
    start.log = [] ∧ start.started = 0 ∧ start.made = [] ∧ start.calledBack = [] ∧
      start.mainQueue.flatMap Block.answers = [] := by
  dsimp only
  obtain ⟨-, h⟩ | ⟨user, -, h⟩ := launch_cases firebaseAppName taggedPointer keychain reads
  · rw [h]
    exact ⟨rfl, rfl, rfl, rfl, rfl⟩
  · rw [h]
    have hwork := possiblyPost_sameWork (setCurrentUser { ((initWithAPIKey firebaseAppName
      taggedPointer keychain).getUser reads).2.setUser 0 user with allocated := 1 } (some 0))
    exact ⟨possiblyPost_log _, hwork.started, hwork.made, hwork.calledBack, hwork.answers⟩

theorem honours_launch : let start := launch firebaseAppName taggedPointer keychain reads
    Honours start.session 0 start := by
  dsimp only
  obtain ⟨hlog, hstarted, hmade, hcalled, hanswers⟩ :=
    launch_idle firebaseAppName taggedPointer keychain reads
  have hconserved := (@accounted_launch firebaseAppName taggedPointer keychain reads).conserved
  have hwaiting : (launch firebaseAppName taggedPointer keychain reads).waiting = 0 := by
    apply Multiset.le_zero.mp
    rw [hmade] at hconserved
    exact (Multiset.le_add_right _ _).trans hconserved.le
  refine ⟨Session.launch (launch firebaseAppName taggedPointer keychain reads).session, ?_,
    rfl, hstarted.symm, ?_, hanswers.symm⟩
  · rw [hlog]
    rfl
  · rw [hwaiting]
    rfl

/-- Throughout a run the log is one of a session that answers every call once, with a user or
an error, in the order in which the completions then run, exactly if the run never loses a
sign-up. -/
theorem contract_exact (es : List FIRAuthEvent) :
    let start := launch firebaseAppName taggedPointer keychain reads
    machine.Throughout (Honours start.session 0) start es ↔
      machine.Along (fun _ auth e => ¬auth.Loses e) start es := by
  dsimp only
  apply Machine.throughout_iff_along (I := fun _ auth => auth.Accounted ∧ Retrieving none auth)
    ⟨accounted_launch, .launch firebaseAppName taggedPointer keychain reads⟩
  · rintro before t e u ⟨hacc, hr⟩ hu
    exact ⟨accounted_step hacc hu, hr.step hu⟩
  · exact honours_launch firebaseAppName taggedPointer keychain reads
  · rintro before t e u ⟨hacc, hr⟩ h hu
    exact honours_step hacc hr h hu

end Runs

end FIRAuth

end WhichStream.Firebase
