import WhichStream.Firebase.Callbacks

/-!
FirebaseAuth does not lose itself in its own work: between two calls of the app only so
many steps are possible, and when none is, every closure has been called.
-/

namespace WhichStream.Firebase

open EventMachine SerialTasks

-- The steps that no call of the app is needed for.
def FIRAuthEvent.internal : FIRAuthEvent → Bool
  | .call .. => false
  | .sendEmailVerification _ => false
  | .signOut _ => false
  | _ => true

def Request.load : Request → ℕ
  | .tokens .. => 13
  | _ => 9

def Block.load : Block → ℕ
  | .stateDidChange => 1
  | _ => 3

def FIRSecureTokenService.load {γ : Type*} (s : FIRSecureTokenService γ) : ℕ := s.taskQueue.weight 11

namespace FIRSecureTokenService

variable {γ : Type*} {s s' : FIRSecureTokenService γ} {now : NSDate}

theorem load_fetch (forceRefresh : Bool) (callback : γ) :
    (s.fetchAccessToken forceRefresh callback).load = s.load + 12 :=
  s.taskQueue.weight_enqueue 11 _

theorem load_calledBack {callback : γ} {result : FetchResult}
    (h : s.runTask now = some (.calledBack callback result, s')) : s.load = s'.load + 12 := by
  obtain ⟨⟨task, started⟩, hstart, h⟩ := Option.bind_eq_some_iff.mp h
  dsimp only at h
  split_ifs at h with hvalid
  · obtain ⟨⟨t, completed⟩, hcomplete, h⟩ := Option.map_eq_some_iff.mp h
    obtain ⟨-, rfl⟩ := Prod.mk.inj h
    have hload : (s.setTaskQueue completed).load = completed.weight 11 := rfl
    rw [load, SerialQueue.weight_start 11 hstart, SerialQueue.weight_complete 11 hcomplete, hload]
  · cases h

theorem load_requested {request : SecureTokenRequest}
    (h : s.runTask now = some (.requested request, s')) : s.load = s'.load + 1 := by
  obtain ⟨⟨task, started⟩, hstart, h⟩ := Option.bind_eq_some_iff.mp h
  dsimp only at h
  split_ifs at h with hvalid
  · obtain ⟨⟨t, completed⟩, hcomplete, h⟩ := Option.map_eq_some_iff.mp h
    cases h
  · obtain ⟨-, rfl⟩ := Prod.mk.inj (Option.some.inj h)
    exact SerialQueue.weight_start 11 hstart

theorem load_completed {r : Except ErrorCode SecureTokenResponse} {call : γ × FetchResult}
    (h : s.requestCompleted r = some (call, s')) : s.load = s'.load + 11 := by
  obtain ⟨⟨task, completed⟩, hcomplete, h⟩ := Option.map_eq_some_iff.mp h
  have hload := SerialQueue.weight_complete 11 hcomplete
  cases r with
  | error e =>
    obtain ⟨-, rfl⟩ := Prod.mk.inj h
    exact hload
  | ok response =>
    obtain ⟨-, rfl⟩ := Prod.mk.inj h
    exact hload

theorem runTask_busy {r : TaskOutcome γ × FIRSecureTokenService γ} (h : s.runTask now = some r) :
    s.callbacks ≠ [] := by
  obtain ⟨⟨task, started⟩, hstart, -⟩ := Option.bind_eq_some_iff.mp h
  rw [callbacks, SerialQueue.tasks, (SerialQueue.start_cases hstart).2.1]
  simp

theorem runs_or_completes (h : s.callbacks ≠ []) (now : NSDate) (e : ErrorCode) :
    (s.runTask now).isSome ∨ (s.requestCompleted (.error e)).isSome := by
  have htasks : s.taskQueue.tasks ≠ [] := by
    intro hnil
    exact h (by rw [callbacks, hnil, List.map_nil])
  obtain hstart | hcomplete := SerialQueue.progress htasks
  · refine Or.inl ?_
    obtain ⟨⟨task, started⟩, hstart⟩ := Option.isSome_iff_exists.mp hstart
    have hrunning := (SerialQueue.start_cases hstart).2.2
    unfold runTask
    rw [hstart, Option.bind_some]
    dsimp only
    split_ifs
    · rw [Option.isSome_map, SerialQueue.complete, hrunning]
      rfl
    · rfl
  · refine Or.inr ?_
    unfold requestCompleted
    rw [Option.isSome_map]
    exact hcomplete

end FIRSecureTokenService

namespace FIRAuth

variable (auth : FIRAuth) {ref : Ref} {f : SaveFaults}

def fetchingLoad : ℕ := ∑ ref ∈ Finset.range auth.allocated, (auth.users ref).tokenService.load

/-- A bound on the steps that the work in progress can still take. -/
def load : ℕ :=
  (auth.requests.map Request.load).sum + auth.fetchingLoad + (auth.mainQueue.map Block.load).sum

end FIRAuth

theorem SameWork.load {a b : FIRAuth} {p : ℕ} (h : SameWork p a b) : b.load ≤ a.load + p := by
  obtain ⟨n, hn, hqueue⟩ := h.posted
  unfold FIRAuth.load FIRAuth.fetchingLoad
  rw [h.requests, h.allocated, h.users, hqueue, List.map_append, List.map_replicate,
    List.sum_append, List.sum_replicate_nat, Block.load]
  omega

namespace FIRAuth

variable (auth : FIRAuth) {ref : Ref} {f : SaveFaults}

theorem callInMainThread_load (call : Call) (k : ℕ) (outcome : Outcome) :
    (auth.callInMainThread call k outcome).load = auth.load + 3 := by
  unfold load callInMainThread
  rw [List.map_append, List.sum_append, ← add_assoc]
  rfl

theorem callInMainThreadWithError_load (m : ℕ) (error : Option ErrorCode) :
    (auth.callInMainThreadWithError m error).load = auth.load + 3 := by
  unfold load callInMainThreadWithError
  rw [List.map_append, List.sum_append, ← add_assoc]
  rfl

theorem request_load (r : Request) : (auth.request r).load = auth.load + r.load := by
  have hsum : ((auth.requests ++ [r]).map Request.load).sum =
      (auth.requests.map Request.load).sum + r.load := by
    rw [List.map_append, List.sum_append]
    rfl
  have hload : (auth.request r).load = ((auth.requests ++ [r]).map Request.load).sum +
      auth.fetchingLoad + (auth.mainQueue.map Block.load).sum := rfl
  rw [hload, hsum, load]
  omega

theorem answered_load {m : FIRAuth} {r : Request} (h : auth.answered r = some m) :
    auth.load = m.load + r.load := by
  unfold answered at h
  split_ifs at h with hr
  obtain rfl := Option.some.inj h
  have hsum : (auth.requests.map Request.load).sum =
      r.load + ((auth.requests.erase r).map Request.load).sum := by
    have hperm := ((List.perm_cons_erase hr).map Request.load).sum_eq
    rw [hperm, List.map_cons, List.sum_cons]
  have hload : load { auth with requests := auth.requests.erase r } =
      ((auth.requests.erase r).map Request.load).sum + auth.fetchingLoad +
        (auth.mainQueue.map Block.load).sum := rfl
  rw [hload, load, hsum]
  omega

theorem setUser_load (hr : ref < auth.allocated) (user : FIRUser Completion) :
    (auth.setUser ref user).load + (auth.users ref).tokenService.load =
      auth.load + user.tokenService.load := by
  have hmove := sum_exchange (Finset.mem_range.mpr hr)
    (g := fun r => (auth.users r).tokenService.load)
    (f := fun r => ((auth.setUser ref user).users r).tokenService.load)
    (fun r hne => by rw [auth.setUser_of_ne user hne])
  rw [setUser_self] at hmove
  have hload : (auth.setUser ref user).load = (auth.requests.map Request.load).sum +
      ∑ r ∈ Finset.range auth.allocated, ((auth.setUser ref user).users r).tokenService.load +
        (auth.mainQueue.map Block.load).sum := rfl
  rw [hload, load, fetchingLoad]
  omega

theorem setTokenService_load (hr : ref < auth.allocated) (s : FIRSecureTokenService Completion) :
    (auth.setTokenService ref s).load + (auth.users ref).tokenService.load = auth.load + s.load :=
  auth.setUser_load hr _

theorem setUser_load_same {user : FIRUser Completion}
    (h : user.tokenService = (auth.users ref).tokenService) :
    (auth.setUser ref user).load = auth.load := by
  have hsame : ∀ r, ((auth.setUser ref user).users r).tokenService = (auth.users r).tokenService := by
    intro r
    by_cases hr : r = ref
    · rw [hr, setUser_self, h]
    · rw [auth.setUser_of_ne user hr]
  unfold load fetchingLoad
  simp only [hsame]
  rfl

theorem internalGetToken_load (hr : ref < auth.allocated) (c : Completion) :
    (auth.internalGetToken ref c).load = auth.load + 12 := by
  have hmove := auth.setTokenService_load hr ((auth.users ref).tokenService.fetchAccessToken false c)
  rw [FIRSecureTokenService.load_fetch] at hmove
  unfold internalGetToken
  omega

theorem retrieveUser_load (call : Call) (k : ℕ) (t : IssuedTokens) :
    (auth.retrieveUser call k t).load = auth.load + 12 := by
  unfold retrieveUser
  rw [internalGetToken_load _ (Nat.lt_succ_self _), Nat.add_right_cancel_iff]
  unfold load fetchingLoad
  dsimp only
  rw [Finset.sum_range_succ, setUser_self]
  have hsum : ∑ r ∈ Finset.range auth.allocated, ((auth.setUser auth.allocated (.initWithTokenService
      (.initWithTokens t.IDToken t.approximateExpirationDate t.refreshToken))).users r).tokenService.load =
        ∑ r ∈ Finset.range auth.allocated, (auth.users r).tokenService.load := by
    apply Finset.sum_congr rfl
    intro r hr
    rw [setUser_of_ne _ _ (Finset.mem_range.mp hr).ne]
  rw [hsum]
  rfl

theorem completeSignIn_load (call : Call) (k : ℕ) (result : Except ErrorCode Ref) (f : SaveFaults) :
    (auth.completeSignIn call k result f).load ≤ auth.load + 4 := by
  have h := auth.completeSignIn_cases call k result f
  generalize auth.completeSignIn call k result f = b at h
  cases h with
  | reported hcall hresult =>
    rw [callInMainThread_load]
    omega
  | updated hasks hu =>
    have hsame := (Updated.sameWork auth hu).load
    rw [callInMainThread_load]
    dsimp only at hsame
    omega
  | failed hasks hne hf =>
    rw [callInMainThread_load]
    omega

theorem gotToken_load (ref : Ref) (c : Completion) (result : Except ErrorCode Unit) (f : SaveFaults) :
    (auth.gotToken ref c result f).load ≤ auth.load + 9 := by
  cases c with
  | auth call k =>
    cases result with
    | ok u => exact (auth.request_load (.getAccountInfo call k ref)).le
    | error e =>
      have h := auth.completeSignIn_load call k (.error e) f
      exact h.trans (by omega)
  | mail m =>
    cases result with
    | ok u => exact (auth.request_load (.getOOBConfirmationCode m ref)).le
    | error e =>
      have h := auth.callInMainThreadWithError_load m (some e)
      exact h.le.trans (by omega)

theorem internalGetTokenCallback_load (ref : Ref) (c : Completion) (result : FetchResult)
    (f : SaveFaults) : (auth.internalGetTokenCallback ref c result f).load ≤ auth.load + 10 := by
  unfold internalGetTokenCallback
  split
  · next e _ =>
    have hsame := (auth.signOutIfTokenIsInvalid_sameWork ref (some e) f).load
    have hgot := (auth.signOutIfTokenIsInvalid ref (some e) f).gotToken_load ref c (.error e) f
    omega
  · split_ifs
    · have hsame := (auth.updateKeychainWithUser_sameWork ref f).load
      dsimp only
      split
      · have hgot := (auth.updateKeychainWithUser ref f).2.gotToken_load ref c (.ok ()) f
        omega
      · have hgot := (auth.updateKeychainWithUser ref f).2.gotToken_load ref c
          (.error FIRAuthErrorCodeKeychainError) f
        omega
    · have hgot := auth.gotToken_load ref c (.ok ()) f
      omega

/-- Every step that needs no call of the app uses up some of the load. -/
theorem load_step {a b : FIRAuth} {e : FIRAuthEvent} (h : a.Accounted) (he : e.internal = true)
    (hu : machine.step a e = some b) : b.load < a.load := by
  cases e with
  | call call email password => cases he
  | sendEmailVerification ref => cases he
  | signOut f => cases he
  | tokens call k result =>
    obtain ⟨m, hm, rfl⟩ := Option.map_eq_some_iff.mp hu
    have hload := a.answered_load hm
    have hr : (Request.tokens call k).load = 13 := rfl
    cases result with
    | error e =>
      have hcall := m.callInMainThread_load call k (.error e)
      dsimp only [gotTokens]
      omega
    | ok t =>
      have hretrieve := m.retrieveUser_load call k t
      dsimp only [gotTokens]
      omega
  | runTask ref now =>
    obtain ⟨⟨outcome, s⟩, hr, rfl⟩ := Option.map_eq_some_iff.mp hu
    have hallocated := h.allocated (FIRSecureTokenService.runTask_busy hr)
    have hmove := a.setTokenService_load hallocated s
    cases outcome with
    | calledBack c result =>
      have hs := FIRSecureTokenService.load_calledBack hr
      have hgot := (a.setTokenService ref s).internalGetTokenCallback_load ref c result ⟨none, none⟩
      dsimp only [ran]
      omega
    | requested request =>
      have hs := FIRSecureTokenService.load_requested hr
      dsimp only [ran]
      omega
  | requestCompleted ref result f =>
    obtain ⟨⟨⟨c, fetched⟩, s⟩, hr, rfl⟩ := Option.map_eq_some_iff.mp hu
    have hallocated : ref < a.allocated := by
      apply h.allocated
      rw [(FIRSecureTokenService.requestCompleted_cases hr).1]
      exact List.cons_ne_nil _ _
    have hmove := a.setTokenService_load hallocated s
    have hs := FIRSecureTokenService.load_completed hr
    have hgot := (a.setTokenService ref s).internalGetTokenCallback_load ref c fetched f
    dsimp only
    omega
  | gotAccountInfo call k ref result f =>
    obtain ⟨m, hm, rfl⟩ := Option.map_eq_some_iff.mp hu
    have hload := a.answered_load hm
    have hr : (Request.getAccountInfo call k ref).load = 9 := rfl
    cases result with
    | error e =>
      have hcomplete := m.completeSignIn_load call k (.error e) f
      dsimp only [gotAccountInfo]
      omega
    | ok account =>
      have hsame : (m.lookedUp ref account).load = m.load := m.setUser_load_same rfl
      have hcomplete := (m.lookedUp ref account).completeSignIn_load call k (.ok ref) f
      dsimp only [gotAccountInfo]
      omega
  | gotOOBConfirmationCode k ref error f =>
    obtain ⟨m, hm, rfl⟩ := Option.map_eq_some_iff.mp hu
    have hload := a.answered_load hm
    have hr : (Request.getOOBConfirmationCode k ref).load = 9 := rfl
    have hsame := (m.signOutIfTokenIsInvalid_sameWork ref error f).load
    have hcall := (m.signOutIfTokenIsInvalid ref error f).callInMainThreadWithError_load k error
    omega
  | main =>
    have hu : a.step .main = some b := hu
    unfold step at hu
    dsimp only at hu
    split at hu
    · cases hu
    · next block rest hqueue =>
      obtain rfl := Option.some.inj hu
      have hload : a.load = (a.requests.map Request.load).sum + a.fetchingLoad +
          (block.load + (rest.map Block.load).sum) := by
        rw [load, hqueue, List.map_cons, List.sum_cons]
      rw [hload]
      unfold load fetchingLoad
      have hpos : 0 < block.load := by cases block <;> simp [Block.load]
      dsimp only
      omega

theorem answered_isSome {r : Request} (h : r ∈ auth.requests) : ∃ m, auth.answered r = some m :=
  ⟨_, if_pos h⟩

/-- While a closure waits, the service can answer or a queue can go on. -/
theorem waiting_progress (h : auth.waiting ≠ 0) :
    ∃ e, FIRAuthEvent.internal e = true ∧ (machine.step auth e).isSome := by
  by_cases hmain : auth.mainQueue = []
  · by_cases hrequests : auth.requests = []
    · have hfetching : auth.fetching ≠ 0 := by
        intro hzero
        apply h
        rw [waiting, hzero, hmain, hrequests]
        rfl
      obtain ⟨ref, hbusy⟩ : ∃ ref, (auth.users ref).tokenService.callbacks ≠ [] := by
        by_contra hidle
        simp only [not_exists, not_not] at hidle
        apply hfetching
        apply Finset.sum_eq_zero
        intro ref _
        rw [hidle ref, Multiset.coe_nil]
      obtain hrun | hcomplete := FIRSecureTokenService.runs_or_completes hbusy 0 0
      · refine ⟨.runTask ref 0, rfl, ?_⟩
        exact (Option.isSome_map ..).trans hrun
      · refine ⟨.requestCompleted ref (.error 0) ⟨none, none⟩, rfl, ?_⟩
        exact (Option.isSome_map ..).trans hcomplete
    · obtain ⟨r, hr⟩ := List.exists_mem_of_ne_nil _ hrequests
      obtain ⟨m, hm⟩ := auth.answered_isSome hr
      cases r with
      | tokens call k =>
        refine ⟨.tokens call k (.error 0), rfl, ?_⟩
        exact (Option.isSome_map ..).trans (Option.isSome_of_eq_some hm)
      | getAccountInfo call k ref =>
        refine ⟨.gotAccountInfo call k ref (.error 0) ⟨none, none⟩, rfl, ?_⟩
        exact (Option.isSome_map ..).trans (Option.isSome_of_eq_some hm)
      | getOOBConfirmationCode m ref =>
        refine ⟨.gotOOBConfirmationCode m ref none ⟨none, none⟩, rfl, ?_⟩
        exact (Option.isSome_map ..).trans (Option.isSome_of_eq_some hm)
  · refine ⟨.main, rfl, ?_⟩
    obtain ⟨block, rest, hqueue⟩ := List.exists_cons_of_ne_nil hmain
    have hstep : machine.step auth .main = auth.step .main := rfl
    rw [hstep, step, hqueue]
    rfl

theorem internal_run_bounded {a b : FIRAuth} {es : List FIRAuthEvent} (h : a.Accounted)
    (hes : ∀ e ∈ es, FIRAuthEvent.internal e = true) (hrun : machine.run a es = some b) :
    b.Accounted ∧ es.length + b.load ≤ a.load := by
  induction es using List.reverseRecOn generalizing b with
  | nil =>
    obtain rfl : a = b := by simpa using hrun
    exact ⟨h, by simp⟩
  | append_singleton es e ih =>
    obtain ⟨u, hu, he⟩ := machine.run_concat_some.mp hrun
    obtain ⟨haccounted, hbound⟩ := ih (fun x hx => hes x (List.mem_append_left _ hx)) hu
    have hinternal := hes e (List.mem_append_right _ (List.mem_singleton_self e))
    have hless := load_step haccounted hinternal he
    refine ⟨accounted_step haccounted he, ?_⟩
    rw [List.length_append, List.length_singleton]
    omega

section Runs

variable {firebaseAppName : String} {taggedPointer : String → Bool}
  {keychain : FIRAuthKeychain KeyedArchives.Archive} {reads : FIRAuthKeychain.ReadFaults}

/-- From every state a run reaches, only so many further steps are possible without a call
of the app, and a run that cannot go on has called every closure. -/
theorem closures_all_called {before es : List FIRAuthEvent} {a b : FIRAuth}
    (ha : machine.run (launch firebaseAppName taggedPointer keychain reads) before = some a)
    (hb : machine.run a es = some b) (hes : ∀ e ∈ es, FIRAuthEvent.internal e = true) :
    es.length ≤ a.load ∧
      ((∀ e, FIRAuthEvent.internal e = true → machine.step b e = none) → b.done = b.made) := by
  obtain ⟨haccounted, hbound⟩ := internal_run_bounded (accounted_run a ha) hes hb
  refine ⟨by omega, ?_⟩
  intro hstuck
  have hwaiting : b.waiting = 0 := by
    by_contra hne
    obtain ⟨e, he, hsome⟩ := b.waiting_progress hne
    rw [hstuck e he] at hsome
    cases hsome
  have hconserved := haccounted.conserved
  rw [hwaiting, zero_add] at hconserved
  exact hconserved

theorem signUp_all_called : ∃ a b : FIRAuth, ∃ es : List FIRAuthEvent, es.length = 2 ∧
    machine.run a es = some b ∧ es.length ≤ a.load ∧
      ((∀ e, FIRAuthEvent.internal e = true → machine.step b e = none) → b.done = b.made) := by
  let start := launch "app" (fun _ => false) ⟨[], "auth", fun _ => false, List.nodup_nil⟩
    ⟨none, none, none, none⟩
  let es : List FIRAuthEvent := [.tokens .createUser 0 (.error 0), .main]
  have ha : (machine.run start [.call .createUser [⟨[]⟩] [⟨[]⟩]]).isSome := by decide +kernel
  obtain ⟨a, ha⟩ := Option.isSome_iff_exists.mp ha
  have hb : ((machine.run start [.call .createUser [⟨[]⟩] [⟨[]⟩]]).bind
      (fun a => machine.run a es)).isSome := by decide +kernel
  rw [ha, Option.bind_some] at hb
  obtain ⟨b, hb⟩ := Option.isSome_iff_exists.mp hb
  have hes : ∀ e ∈ es, FIRAuthEvent.internal e = true := by
    intro e he
    obtain rfl | he := List.mem_cons.mp he
    · rfl
    · obtain rfl := List.mem_singleton.mp he
      rfl
  exact ⟨a, b, es, rfl, hb, closures_all_called ha hb hes⟩

end Runs

end FIRAuth

end WhichStream.Firebase
