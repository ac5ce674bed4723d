import WhichStream.Auth

/-!
What the screens rely on in a session: every call is answered once, a user or an error,
the current user is the one of the last success, and completions run in the order of the
answers.
-/

namespace WhichStream.Firebase

open EventMachine

structure Session where
  currentUser : Option User
  started : ℕ
  waiting : List ℕ
  answered : List (ℕ × AuthResult)

inductive SessionEvent
  | start (call : Call)
  | answer (k : ℕ) (result : AuthResult)
  | answerWithoutUser (k : ℕ)
  | signedOut
  | callback (k : ℕ)
  deriving DecidableEq, Repr

namespace Session

def launch (session : Option User) : Session := ⟨session, 0, [], []⟩

-- An answer with neither a user nor an error is none.
def step (s : Session) : SessionEvent → Option Session
  | .start _ => some { s with started := s.started + 1, waiting := s.waiting ++ [s.started] }
  | .answer k result =>
    if k ∈ s.waiting then
      some { s with
        currentUser := Auth.updateCurrentUser s.currentUser result
        waiting := s.waiting.erase k
        answered := s.answered ++ [(k, result)] }
    else none
  | .answerWithoutUser _ => none
  | .signedOut => some { s with currentUser := none }
  | .callback k =>
    match s.answered with
    | (j, _) :: rest => if j = k then some { s with answered := rest } else none
    | [] => none

def machine : Machine Session SessionEvent := ⟨step⟩

inductive Step (s : Session) : SessionEvent → Session → Prop
  | start (call) : Step s (.start call)
      { s with started := s.started + 1, waiting := s.waiting ++ [s.started] }
  | answer {k} (result) (waits : k ∈ s.waiting) : Step s (.answer k result)
      { s with
        currentUser := Auth.updateCurrentUser s.currentUser result
        waiting := s.waiting.erase k
        answered := s.answered ++ [(k, result)] }
  | signedOut : Step s .signedOut { s with currentUser := none }
  | callback {k result rest} (first : s.answered = (k, result) :: rest) :
      Step s (.callback k) { s with answered := rest }

theorem step_cases {s s' : Session} {e : SessionEvent} (h : machine.step s e = some s') :
    Step s e s' := by
  cases e with
  | start call =>
    obtain rfl := Option.some.inj h
    exact .start call
  | answer k result =>
    have h : s.step (.answer k result) = some s' := h
    unfold step at h
    dsimp only at h
    split_ifs at h with hk
    obtain rfl := Option.some.inj h
    exact .answer result hk
  | answerWithoutUser k => cases h
  | signedOut =>
    obtain rfl := Option.some.inj h
    exact .signedOut
  | callback k =>
    have h : s.step (.callback k) = some s' := h
    unfold step at h
    dsimp only at h
    split at h
    · next j result rest hfirst =>
      split_ifs at h with hj
      obtain rfl := Option.some.inj h
      obtain rfl := hj
      exact .callback hfirst
    · cases h

end Session

end WhichStream.Firebase
