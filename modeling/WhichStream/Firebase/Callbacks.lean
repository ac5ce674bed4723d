import Mathlib.Algebra.BigOperators.Group.Finset.Basic
import Mathlib.Algebra.Order.Group.Multiset
import Mathlib.Tactic.Abel
import WhichStream.Firebase.AuthSteps

/-!
Every closure that the app hands to FirebaseAuth is in one place until it is called: with
a request in flight, in the token queue of a user, or on the main queue.
-/

namespace WhichStream.Firebase

open EventMachine

namespace FIRAuth

variable (auth : FIRAuth) {ref : Ref} {c : Completion} {f : SaveFaults}

def fetching : Multiset Completion :=
  ∑ ref ∈ Finset.range auth.allocated, ((auth.users ref).tokenService.callbacks : Multiset Completion)

def waiting : Multiset Completion :=
  ↑(auth.requests.map Request.completion) + auth.fetching +
    ↑(auth.mainQueue.flatMap Block.completed)

def done : Multiset Completion := ↑(auth.calledBack.flatMap Block.completed)

/-- `b` is `a` with one more closure that waits. -/
structure Awaits (a : FIRAuth) (c : Completion) (b : FIRAuth) : Prop where
  waiting : b.waiting = c ::ₘ a.waiting
  made : b.made = a.made
  calledBack : b.calledBack = a.calledBack
  started : b.started = a.started
  mails : b.mails = a.mails
  allocated : b.allocated = a.allocated
  idle : ∀ ref, a.allocated ≤ ref → b.users ref = a.users ref

end FIRAuth

theorem SameWork.waiting {a b : FIRAuth} {p : ℕ} (h : SameWork p a b) : b.waiting = a.waiting := by
  unfold FIRAuth.waiting FIRAuth.fetching
  rw [h.requests, h.allocated, h.users, h.completed]

namespace FIRAuth

variable (auth : FIRAuth) {ref : Ref} {c : Completion} {f : SaveFaults}

theorem Awaits.after {a b d : FIRAuth} {p : ℕ} (h : SameWork p a b) (h' : Awaits b c d) : Awaits a c d where
  waiting := by rw [h'.waiting, h.waiting]
  made := h'.made.trans h.made
  calledBack := h'.calledBack.trans h.calledBack
  started := h'.started.trans h.started
  mails := h'.mails.trans h.mails
  allocated := h'.allocated.trans h.allocated
  idle ref hr := by rw [h'.idle ref (h.allocated ▸ hr), h.users]

theorem callInMainThread_awaits (call : Call) (k : ℕ) (outcome : Outcome) :
    Awaits auth (.auth call k) (auth.callInMainThread call k outcome) where
  waiting := by
    unfold waiting callInMainThread
    rw [List.flatMap_append, ← Multiset.coe_add, ← add_assoc, add_comm _ (Multiset.ofList _)]
    rfl
  made := rfl
  calledBack := rfl
  started := rfl
  mails := rfl
  allocated := rfl
  idle _ _ := rfl

theorem callInMainThreadWithError_awaits (m : ℕ) (error : Option ErrorCode) :
    Awaits auth (.mail m) (auth.callInMainThreadWithError m error) where
  waiting := by
    unfold waiting callInMainThreadWithError
    rw [List.flatMap_append, ← Multiset.coe_add, ← add_assoc, add_comm _ (Multiset.ofList _)]
    rfl
  made := rfl
  calledBack := rfl
  started := rfl
  mails := rfl
  allocated := rfl
  idle _ _ := rfl

theorem request_awaits (r : Request) : Awaits auth r.completion (auth.request r) where
  waiting := by
    unfold waiting request
    rw [List.map_append, ← Multiset.coe_add, add_comm (Multiset.ofList _) (Multiset.ofList _),
      add_assoc, add_assoc, ← add_assoc (Multiset.ofList (auth.requests.map _))]
    rfl
  made := rfl
  calledBack := rfl
  started := rfl
  mails := rfl
  allocated := rfl
  idle _ _ := rfl

theorem completeSignIn_awaits (call : Call) (k : ℕ) (result : Except ErrorCode Ref)
    (f : SaveFaults) : Awaits auth (.auth call k) (auth.completeSignIn call k result f) := by
  have h := auth.completeSignIn_cases call k result f
  generalize auth.completeSignIn call k result f = b at h
  cases h with
  | reported hcall hresult => exact auth.callInMainThread_awaits call k _
  | updated hasks hu => exact .after (Updated.sameWork auth hu) (callInMainThread_awaits _ call k _)
  | failed hasks hne hf => exact auth.callInMainThread_awaits call k _

theorem gotToken_awaits (ref : Ref) (c : Completion) (result : Except ErrorCode Unit)
    (f : SaveFaults) : Awaits auth c (auth.gotToken ref c result f) := by
  cases c with
  | auth call k =>
    cases result with
    | ok u => exact auth.request_awaits (.getAccountInfo call k ref)
    | error e => exact auth.completeSignIn_awaits call k (.error e) f
  | mail m =>
    cases result with
    | ok u => exact auth.request_awaits (.getOOBConfirmationCode m ref)
    | error e => exact auth.callInMainThreadWithError_awaits m (some e)

theorem internalGetTokenCallback_awaits (ref : Ref) (c : Completion) (result : FetchResult)
    (f : SaveFaults) : Awaits auth c (auth.internalGetTokenCallback ref c result f) := by
  unfold internalGetTokenCallback
  split
  · next e _ =>
    exact .after (auth.signOutIfTokenIsInvalid_sameWork ref (some e) f) (gotToken_awaits _ _ _ _ _)
  · split_ifs with hupdated
    · have hsame := auth.updateKeychainWithUser_sameWork ref f
      dsimp only
      split
      · exact .after hsame (gotToken_awaits _ _ _ _ _)
      · exact .after hsame (gotToken_awaits _ _ _ _ _)
    · exact gotToken_awaits _ _ _ _ _

theorem answered_waiting {auth' : FIRAuth} {r : Request} (h : auth.answered r = some auth') :
    auth.waiting = r.completion ::ₘ auth'.waiting := by
  unfold answered at h
  split_ifs at h with hr
  obtain rfl := Option.some.inj h
  have hperm := (List.perm_cons_erase hr).map Request.completion
  have hrequests : (↑(auth.requests.map Request.completion) : Multiset Completion) =
      r.completion ::ₘ ↑((auth.requests.erase r).map Request.completion) :=
    Multiset.coe_eq_coe.mpr hperm
  unfold waiting
  rw [hrequests, Multiset.cons_add, Multiset.cons_add]
  rfl

theorem answered_users {m : FIRAuth} {r : Request} (h : auth.answered r = some m) :
    m.users = auth.users := by
  unfold answered at h
  split_ifs at h
  obtain rfl := Option.some.inj h
  rfl

theorem answered_setUser {m : FIRAuth} {r : Request} (h : auth.answered r = some m)
    (user : FIRUser Completion) :
    (auth.setUser ref user).answered r = some (m.setUser ref user) := by
  unfold answered at h ⊢
  split_ifs at h with hr
  obtain rfl := Option.some.inj h
  exact if_pos hr

theorem sum_exchange {M : Type*} [AddCommMonoid M] {s : Finset ℕ} {f g : ℕ → M} {i : ℕ}
    (hi : i ∈ s) (h : ∀ j, j ≠ i → f j = g j) :
    ∑ j ∈ s, f j + g i = ∑ j ∈ s, g j + f i := by
  have hrest : ∑ j ∈ s.erase i, f j = ∑ j ∈ s.erase i, g j :=
    Finset.sum_congr rfl (fun j hj => h j (Finset.ne_of_mem_erase hj))
  rw [← Finset.add_sum_erase s f hi, ← Finset.add_sum_erase s g hi, hrest, add_right_comm,
    add_comm (f i), add_right_comm]

theorem setTokenService_waiting (hr : ref < auth.allocated) (s : FIRSecureTokenService Completion) :
    (auth.setTokenService ref s).waiting + ↑(auth.users ref).tokenService.callbacks =
      auth.waiting + ↑s.callbacks := by
  have hfetching := sum_exchange (Finset.mem_range.mpr hr)
    (g := fun r => ((auth.users r).tokenService.callbacks : Multiset Completion))
    (f := fun r => (((auth.setTokenService ref s).users r).tokenService.callbacks :
      Multiset Completion))
    (fun r hne => by rw [auth.setTokenService_of_ne s hne])
  rw [setTokenService_self] at hfetching
  unfold waiting
  have hmove : (auth.setTokenService ref s).fetching + ↑(auth.users ref).tokenService.callbacks =
      auth.fetching + ↑s.callbacks := hfetching
  rw [add_right_comm, add_assoc _ (auth.setTokenService ref s).fetching, hmove, ← add_assoc,
    add_right_comm]
  rfl

theorem internalGetToken_awaits (hr : ref < auth.allocated) (c : Completion) :
    Awaits auth c (auth.internalGetToken ref c) where
  waiting := by
    have h := auth.setTokenService_waiting hr ((auth.users ref).tokenService.fetchAccessToken false c)
    rw [FIRSecureTokenService.callbacks_fetch, ← Multiset.coe_add, add_comm (Multiset.ofList _),
      ← add_assoc, add_left_inj, add_comm] at h
    exact h
  made := rfl
  calledBack := rfl
  started := rfl
  mails := rfl
  allocated := rfl
  idle r hle := by
    have hne : r ≠ ref := (Nat.lt_of_lt_of_le hr hle).ne'
    rw [internalGetToken, setTokenService_of_ne _ _ hne]

/-- Taking the first closure out of a token queue. -/
theorem taken_waiting (hr : ref < auth.allocated) {s : FIRSecureTokenService Completion}
    (h : (auth.users ref).tokenService.callbacks = c :: s.callbacks) :
    auth.waiting = c ::ₘ (auth.setTokenService ref s).waiting := by
  have hmove := auth.setTokenService_waiting hr s
  rw [h, ← Multiset.cons_coe, ← Multiset.singleton_add, ← add_assoc, add_left_inj, add_comm] at hmove
  exact hmove.symm

theorem retrieveUser_awaits (call : Call) (k : ℕ) (t : IssuedTokens) :
    (auth.retrieveUser call k t).waiting = .auth call k ::ₘ auth.waiting ∧
      (auth.retrieveUser call k t).made = auth.made ∧
      (auth.retrieveUser call k t).calledBack = auth.calledBack ∧
      (auth.retrieveUser call k t).started = auth.started ∧
      (auth.retrieveUser call k t).mails = auth.mails ∧
      (auth.retrieveUser call k t).allocated = auth.allocated + 1 ∧
      ∀ ref, auth.allocated < ref → (auth.retrieveUser call k t).users ref = auth.users ref := by
  set mid : FIRAuth := { auth.setUser auth.allocated (.initWithTokenService
      (.initWithTokens t.IDToken t.approximateExpirationDate t.refreshToken)) with
    allocated := auth.allocated + 1 } with hmid
  have hlt : auth.allocated < mid.allocated := Nat.lt_succ_self _
  have hawaits : Awaits mid (.auth call k) (auth.retrieveUser call k t) :=
    mid.internalGetToken_awaits hlt (.auth call k)
  have hfetching : mid.fetching = auth.fetching := by
    have hsum : mid.fetching = ∑ ref ∈ Finset.range (auth.allocated + 1),
        ((mid.users ref).tokenService.callbacks : Multiset Completion) := rfl
    rw [hsum, Finset.sum_range_succ]
    have hnew : (mid.users auth.allocated).tokenService.callbacks = [] := by
      have huser : mid.users auth.allocated = .initWithTokenService
          (.initWithTokens t.IDToken t.approximateExpirationDate t.refreshToken) :=
        auth.setUser_self _
      rw [huser]
      rfl
    rw [hnew, Multiset.coe_nil, add_zero]
    apply Finset.sum_congr rfl
    intro r hr
    have hne : r ≠ auth.allocated := (Finset.mem_range.mp hr).ne
    have huser : mid.users r = auth.users r := auth.setUser_of_ne _ hne
    rw [huser]
  have hwaiting : mid.waiting = auth.waiting := by
    unfold waiting
    rw [hfetching]
    rfl
  refine ⟨by rw [hawaits.waiting, hwaiting], hawaits.made, hawaits.calledBack, hawaits.started,
    hawaits.mails, hawaits.allocated, ?_⟩
  intro r hr
  have huser : mid.users r = auth.users r := auth.setUser_of_ne _ hr.ne'
  rw [hawaits.idle r hr, huser]

structure Numbered (auth : FIRAuth) : Prop where
  calls : ∀ call k, .auth call k ∈ auth.made → k < auth.started
  mails : ∀ m, .mail m ∈ auth.made → m < auth.mails
  nodup : auth.made.Nodup

structure Accounted (auth : FIRAuth) : Prop where
  conserved : auth.waiting + auth.done = auth.made
  numbered : auth.Numbered
  idle : ∀ ref, auth.allocated ≤ ref → (auth.users ref).tokenService.callbacks = []

theorem Accounted.allocated {auth : FIRAuth} (h : auth.Accounted)
    (hr : (auth.users ref).tokenService.callbacks ≠ []) : ref < auth.allocated := by
  by_contra hle
  exact hr (h.idle ref (Nat.le_of_not_lt hle))

/-- A closure that is taken from its place is put in its next one. -/
theorem Accounted.moved {a m b : FIRAuth} (h : a.Accounted) (htaken : a.waiting = c ::ₘ m.waiting)
    (hm : m.made = a.made ∧ m.calledBack = a.calledBack ∧ m.started = a.started ∧
      m.mails = a.mails ∧ m.allocated = a.allocated)
    (hidle : ∀ ref, a.allocated ≤ ref → (m.users ref).tokenService.callbacks = [])
    (hput : Awaits m c b) : b.Accounted := by
  obtain ⟨hmade, hcalled, hstarted, hmails, hallocated⟩ := hm
  have hbmade : b.made = a.made := hput.made.trans hmade
  constructor
  · rw [hput.waiting, ← htaken, done, hput.calledBack, hcalled, hbmade]
    exact h.conserved
  · constructor
    · rw [hbmade, hput.started, hstarted]
      exact h.numbered.calls
    · rw [hbmade, hput.mails, hmails]
      exact h.numbered.mails
    · rw [hbmade]
      exact h.numbered.nodup
  · intro ref hr
    rw [hput.allocated] at hr
    rw [hput.idle ref hr]
    exact hidle ref (hallocated ▸ hr)

theorem Accounted.answered {a m b : FIRAuth} {r : Request} (h : a.Accounted)
    (hm : a.answered r = some m) (hput : Awaits m r.completion b) : b.Accounted := by
  have htaken := a.answered_waiting hm
  unfold FIRAuth.answered at hm
  split_ifs at hm
  obtain rfl := Option.some.inj hm
  exact h.moved htaken ⟨rfl, rfl, rfl, rfl, rfl⟩ h.idle hput

theorem Accounted.taken {a b : FIRAuth} {s : FIRSecureTokenService Completion} (h : a.Accounted)
    (htaken : (a.users ref).tokenService.callbacks = c :: s.callbacks)
    (hput : Awaits (a.setTokenService ref s) c b) : b.Accounted := by
  have hr : ref < a.allocated := h.allocated (by rw [htaken]; exact List.cons_ne_nil _ _)
  refine h.moved (a.taken_waiting hr htaken) ⟨rfl, rfl, rfl, rfl, rfl⟩ ?_ hput
  intro other hle
  rw [a.setTokenService_of_ne s (Nat.lt_of_lt_of_le hr hle).ne']
  exact h.idle other hle

theorem Accounted.sameWork {a b : FIRAuth} {p : ℕ} (h : a.Accounted) (hs : SameWork p a b) : b.Accounted := by
  constructor
  · rw [hs.waiting, done, hs.calledBack, hs.made]
    exact h.conserved
  · constructor
    · rw [hs.made, hs.started]
      exact h.numbered.calls
    · rw [hs.made, hs.mails]
      exact h.numbered.mails
    · rw [hs.made]
      exact h.numbered.nodup
  · rw [hs.allocated, hs.users]
    exact h.idle

theorem Numbered.start {a : FIRAuth} (h : a.Numbered) (call : Call) : (a.start call).Numbered := by
  constructor
  · intro c k hk
    obtain hk | hk := List.mem_append.mp hk
    · exact (h.calls c k hk).trans (Nat.lt_succ_self _)
    · obtain ⟨-, rfl⟩ := Completion.auth.inj (List.mem_singleton.mp hk)
      exact Nat.lt_succ_self _
  · intro m hm
    obtain hm | hm := List.mem_append.mp hm
    · exact h.mails m hm
    · cases List.mem_singleton.mp hm
  · exact List.nodup_append_comm.mp (List.nodup_cons.mpr
      ⟨fun hin => (h.calls _ _ hin).false, h.nodup⟩)

theorem Numbered.startMail {a : FIRAuth} (h : a.Numbered) : a.startMail.Numbered := by
  constructor
  · intro c k hk
    obtain hk | hk := List.mem_append.mp hk
    · exact h.calls c k hk
    · cases List.mem_singleton.mp hk
  · intro m hm
    obtain hm | hm := List.mem_append.mp hm
    · exact (h.mails m hm).trans (Nat.lt_succ_self _)
    · obtain rfl := Completion.mail.inj (List.mem_singleton.mp hm)
      exact Nat.lt_succ_self _
  · exact List.nodup_append_comm.mp (List.nodup_cons.mpr
      ⟨fun hin => (h.mails _ hin).false, h.nodup⟩)

/-- A closure that the app hands over is new, and waits. -/
theorem Accounted.called {a m b : FIRAuth} (h : a.Accounted) (hnumbered : m.Numbered)
    (hm : m.made = a.made ++ [c] ∧ m.waiting = a.waiting ∧ m.calledBack = a.calledBack ∧
      m.allocated = a.allocated ∧ m.users = a.users) (hput : Awaits m c b) : b.Accounted := by
  obtain ⟨hmade, hwaiting, hcalled, hallocated, husers⟩ := hm
  constructor
  · rw [hput.waiting, hwaiting, done, hput.calledBack, hcalled, hput.made, hmade,
      ← Multiset.coe_add, ← h.conserved, Multiset.cons_add, add_comm (a.waiting + _)]
    rfl
  · constructor
    · rw [hput.made, hput.started]
      exact hnumbered.calls
    · rw [hput.made, hput.mails]
      exact hnumbered.mails
    · rw [hput.made]
      exact hnumbered.nodup
  · intro ref hr
    rw [hput.allocated] at hr
    rw [hput.idle ref hr, husers]
    exact h.idle ref (hallocated ▸ hr)

theorem Accounted.signInWithEmail {a : FIRAuth} (h : a.Accounted) (call : Call)
    (email password : Text) : (a.signInWithEmail call email password).Accounted := by
  have hnumbered := h.numbered.start call
  have hfields : (a.start call).made = a.made ++ [.auth call a.started] ∧
      (a.start call).waiting = a.waiting ∧ (a.start call).calledBack = a.calledBack ∧
      (a.start call).allocated = a.allocated ∧ (a.start call).users = a.users :=
    ⟨rfl, rfl, rfl, rfl, rfl⟩
  have hfailed : ∀ e, ((a.start call).callInMainThread call a.started (.error e)).Accounted :=
    fun e => h.called hnumbered hfields (callInMainThread_awaits _ call a.started (.error e))
  have hsent : ((a.start call).request (.tokens call a.started)).Accounted :=
    h.called hnumbered hfields (request_awaits _ (.tokens call a.started))
  unfold FIRAuth.signInWithEmail
  cases call with
  | signIn =>
    dsimp only
    split_ifs
    · exact hfailed _
    · exact hsent
  | createUser =>
    dsimp only
    split_ifs
    · exact hfailed _
    · exact hfailed _
    · exact hsent

theorem Accounted.retrieveUser {a m : FIRAuth} {call : Call} {k : ℕ} (h : a.Accounted)
    (hm : a.answered (.tokens call k) = some m) (t : IssuedTokens) :
    (m.retrieveUser call k t).Accounted := by
  have htaken := a.answered_waiting hm
  unfold FIRAuth.answered at hm
  split_ifs at hm
  obtain rfl := Option.some.inj hm
  obtain ⟨hwaiting, hmade, hcalled, hstarted, hmails, hallocated, husers⟩ :=
    retrieveUser_awaits { a with requests := a.requests.erase (.tokens call k) } call k t
  constructor
  · rw [hwaiting, done, hcalled, hmade]
    exact htaken ▸ h.conserved
  · constructor
    · rw [hmade, hstarted]
      exact h.numbered.calls
    · rw [hmade, hmails]
      exact h.numbered.mails
    · rw [hmade]
      exact h.numbered.nodup
  · intro ref hr
    rw [hallocated] at hr
    rw [husers ref hr]
    exact h.idle ref (Nat.le_of_succ_le hr)

theorem setUser_callbacks {user : FIRUser Completion}
    (h : user.tokenService.callbacks = (auth.users ref).tokenService.callbacks) (r : Ref) :
    ((auth.setUser ref user).users r).tokenService.callbacks =
      (auth.users r).tokenService.callbacks := by
  by_cases hr : r = ref
  · rw [hr, setUser_self, h]
  · rw [auth.setUser_of_ne user hr]

theorem setUser_waiting {user : FIRUser Completion}
    (h : user.tokenService.callbacks = (auth.users ref).tokenService.callbacks) :
    (auth.setUser ref user).waiting = auth.waiting := by
  unfold waiting fetching
  simp only [auth.setUser_callbacks h]
  rfl

theorem Accounted.setUser {a : FIRAuth} (h : a.Accounted) (ref : Ref) {user : FIRUser Completion}
    (huser : user.tokenService.callbacks = (a.users ref).tokenService.callbacks) :
    (a.setUser ref user).Accounted where
  conserved := by
    rw [a.setUser_waiting huser]
    exact h.conserved
  numbered := ⟨h.numbered.calls, h.numbered.mails, h.numbered.nodup⟩
  idle r hr := (a.setUser_callbacks huser r).trans (h.idle r hr)

theorem Accounted.main {a b : FIRAuth} (h : a.Accounted) (hu : machine.step a .main = some b) :
    b.Accounted := by
  have hu : a.step .main = some b := hu
  unfold step at hu
  dsimp only at hu
  split at hu
  · cases hu
  · next block rest hqueue =>
    obtain rfl := Option.some.inj hu
    refine ⟨?_, ⟨h.numbered.calls, h.numbered.mails, h.numbered.nodup⟩, h.idle⟩
    have hcons := h.conserved
    unfold waiting done at hcons ⊢
    rw [hqueue, List.flatMap_cons, ← Multiset.coe_add] at hcons
    rw [List.flatMap_append, ← Multiset.coe_add, List.flatMap_singleton]
    rw [← hcons]
    unfold fetching
    abel

theorem accounted_step {a b : FIRAuth} {e : FIRAuthEvent} (h : a.Accounted)
    (hu : machine.step a e = some b) : b.Accounted := by
  cases e with
  | call call email password =>
    obtain rfl := Option.some.inj hu
    exact h.signInWithEmail call email password
  | sendEmailVerification ref =>
    have hu : (if ref < a.allocated then some (a.startMail.internalGetToken ref (.mail a.mails))
      else none) = some b := hu
    split_ifs at hu with hr
    obtain rfl := Option.some.inj hu
    exact h.called h.numbered.startMail ⟨rfl, rfl, rfl, rfl, rfl⟩
      (a.startMail.internalGetToken_awaits hr (.mail a.mails))
  | signOut f =>
    have hu : (if a.currentUser.isNone then some a
      else some (a.updateCurrentUser none false true f).2) = some b := hu
    split_ifs at hu
    · obtain rfl := Option.some.inj hu
      exact h
    · obtain rfl := Option.some.inj hu
      exact h.sameWork (Updated.sameWork a (a.updateCurrentUser_cases none false f))
  | tokens call k result =>
    obtain ⟨m, hm, rfl⟩ := Option.map_eq_some_iff.mp hu
    cases result with
    | error e => exact h.answered hm (m.callInMainThread_awaits call k (.error e))
    | ok t => exact h.retrieveUser hm t
  | runTask ref now =>
    obtain ⟨⟨outcome, s⟩, hr, rfl⟩ := Option.map_eq_some_iff.mp hu
    obtain ⟨-, ⟨c, rfl, -, htaken⟩ | ⟨rfl, hcallbacks⟩⟩ := FIRSecureTokenService.runTask_cases hr
    · exact h.taken (b := (a.setTokenService ref s).internalGetTokenCallback ref c
        ⟨(a.users ref).tokenService.accessToken, none, false⟩ ⟨none, none⟩) htaken
        (internalGetTokenCallback_awaits _ ref c _ _)
    · exact h.setUser ref hcallbacks
  | requestCompleted ref result f =>
    obtain ⟨⟨⟨c, fetched⟩, s⟩, hr, rfl⟩ := Option.map_eq_some_iff.mp hu
    obtain ⟨htaken, -⟩ := FIRSecureTokenService.requestCompleted_cases hr
    exact h.taken htaken (internalGetTokenCallback_awaits _ _ _ _ _)
  | gotAccountInfo call k ref result f =>
    obtain ⟨m, hm, rfl⟩ := Option.map_eq_some_iff.mp hu
    cases result with
    | error e => exact h.answered hm (m.completeSignIn_awaits call k (.error e) f)
    | ok account =>
      have huser : ({ m.users ref with anonymous := false }.updateWithGetAccountInfoResponse
          account).tokenService.callbacks = (a.users ref).tokenService.callbacks := by
        rw [← a.answered_users hm]
        rfl
      exact (h.setUser ref huser).answered (a.answered_setUser hm _)
        (completeSignIn_awaits _ call k (.ok ref) f)
  | gotOOBConfirmationCode k ref error f =>
    obtain ⟨m, hm, rfl⟩ := Option.map_eq_some_iff.mp hu
    exact h.answered hm (.after (m.signOutIfTokenIsInvalid_sameWork ref error f)
      (callInMainThreadWithError_awaits _ k error))
  | main => exact h.main hu

section Runs

variable {firebaseAppName : String} {taggedPointer : String → Bool}
  {keychain : FIRAuthKeychain KeyedArchives.Archive} {reads : FIRAuthKeychain.ReadFaults}

theorem accounted_launch :
    (launch firebaseAppName taggedPointer keychain reads).Accounted := by
  obtain ⟨-, h⟩ | ⟨user, huser, h⟩ :=
    launch_cases firebaseAppName taggedPointer keychain reads
  · rw [h]
    exact ⟨rfl, ⟨by rintro _ _ ⟨⟩, by rintro _ ⟨⟩, List.nodup_nil⟩, fun _ _ => rfl⟩
  · rw [h]
    refine Accounted.sameWork ?_ (possiblyPost_sameWork _)
    have hempty : user.tokenService.callbacks = [] := getUser_callbacks reads huser
    refine ⟨?_, ⟨by rintro _ _ ⟨⟩, by rintro _ ⟨⟩, List.nodup_nil⟩, ?_⟩
    · have hfetching : fetching (setCurrentUser { ((initWithAPIKey firebaseAppName taggedPointer
          keychain).getUser reads).2.setUser 0 user with allocated := 1 } (some 0)) = 0 :=
        (Finset.sum_range_one _).trans (congrArg Multiset.ofList hempty)
      unfold waiting
      rw [hfetching]
      rfl
    · intro ref hr
      have hne : ref ≠ 0 := Nat.one_le_iff_ne_zero.mp hr
      exact congrArg (fun u : FIRUser Completion => u.tokenService.callbacks)
        (setUser_of_ne _ user hne)

theorem accounted_run {es : List FIRAuthEvent}
    (h : machine.run (launch firebaseAppName taggedPointer keychain reads) es = some auth) :
    auth.Accounted :=
  Machine.invariant (I := fun _ auth => auth.Accounted) accounted_launch
    (fun _ _ _ _ h hu => accounted_step h hu) h

/-- In every run the closures handed over are told apart by their numbers, and each of them
has been called once or waits in one place: none is lost and none is called twice. -/
theorem closures_called_once {es : List FIRAuthEvent}
    (h : machine.run (launch firebaseAppName taggedPointer keychain reads) es = some auth) :
    auth.made.Nodup ∧ auth.waiting + auth.done = auth.made :=
  ⟨(accounted_run auth h).numbered.nodup, (accounted_run auth h).conserved⟩

theorem signIn_called_once : ∃ auth : FIRAuth,
    auth.calledBack = [.completion .signIn 0 (.error FIRAuthErrorCodeWrongPassword)] ∧
      auth.made.Nodup ∧ auth.waiting + auth.done = auth.made := by
  let start := launch "app" (fun _ => false) ⟨[], "auth", fun _ => false, List.nodup_nil⟩
    ⟨none, none, none, none⟩
  let es : List FIRAuthEvent := [.call .signIn [] [], .main, .call .createUser [⟨[]⟩] [⟨[]⟩],
    .tokens .createUser 1 (.ok ⟨some "token", some 3600, some "refresh"⟩)]
  have h : (machine.run start es).isSome := by decide +kernel
  obtain ⟨auth, hrun⟩ := Option.isSome_iff_exists.mp h
  have hcalled : (machine.run start es).map calledBack =
      some [.completion .signIn 0 (.error FIRAuthErrorCodeWrongPassword)] := by decide +kernel
  rw [hrun] at hcalled
  exact ⟨auth, Option.some.inj hcalled, closures_called_once auth hrun⟩

end Runs

end FIRAuth

end WhichStream.Firebase
