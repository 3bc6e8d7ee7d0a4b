import Inference.Proofs.Session.Tracked
/-! Runs of a session: whatever is done in whatever order, the requests are handed back in the order
in which they were accepted, each as its inference left it. -/
namespace Inference

/-- An outcome that the end of the request's inference brings about. -/
def Warrant.HandsBack {m : Model} (w : Warrant m) (o : Outcome) (r : Request) : Prop :=
  ∃ ok frames, w.Served r ok frames ∧ Session.outcomeOf ok frames = .ok o

namespace Session

/-- The outcome that an answer hands back, if it does. -/
def Answer.handsBack? : Answer → Option Outcome
  | .outcome (.ok (.ready frame output)) => some (.ready frame output)
  | .outcome (.ok (.failed frame)) => some (.failed frame)
  | _ => none

/-- The outcomes of the requests that were handed back, in order. -/
def handedBack (answers : List Answer) : List Outcome := answers.filterMap Answer.handsBack?

/-- The request that a command gets into the queue, if it does. -/
def Command.accepted? (m : Model) : Command → Option Request
  | .execute r =>
    match checkRequest m r with
    | .ok _ => some r
    | .error _ => none
  | _ => none

/-- The requests that were accepted, in order of submission. -/
def accepted (m : Model) (commands : List Command) : List Request :=
  commands.filterMap (Command.accepted? m)

theorem accepted_cons (m : Model) (c : Command) (commands : List Command) :
    accepted m (c :: commands) = (c.accepted? m).toList ++ accepted m commands := by
  cases hc : c.accepted? m <;> simp [accepted, hc]

namespace Tracked

variable {m : Model} {w : Warrant m} {requests : List Request} {first : Nat} {s : Session}

theorem execute (h : Tracked w requests first [] s) (r : Request) :
    Tracked w (requests ++ ((Command.execute r).accepted? m).toList) first []
      (s.execute m r).2 := by
  cases hcheck : checkRequest m r with
  | error e =>
    simp only [Session.execute, Command.accepted?, hcheck, Option.toList_none, List.append_nil]
    exact h
  | ok =>
    simp only [Session.execute, Command.accepted?, hcheck, Option.toList_some]
    exact (h.submit r).dispatchNext _

theorem handsBack?_outcomeOf {ok : Bool} {frames : Frames} {o : Outcome}
    (h : outcomeOf ok frames = .ok o) : (Answer.outcome (.ok o)).handsBack? = some o := by
  unfold outcomeOf at h
  cases hinput : frames.input with
  | none => simp [hinput] at h
  | some input =>
    simp only [hinput, Except.ok.injEq] at h
    subst h
    cases ok <;> rfl

/-- A step accepts requests or hands the oldest one back; either way the books stay in order. -/
theorem step (h : Tracked w requests first [] s) (c : Command) :
    ((step m s c).1.handsBack? = none ∧
        Tracked w (requests ++ (c.accepted? m).toList) first [] (step m s c).2) ∨
      ∃ o r, (step m s c).1.handsBack? = some o ∧ c.accepted? m = none ∧
        requests[first]? = some r ∧ w.HandsBack o r ∧
        Tracked w requests (first + 1) [] (step m s c).2 := by
  have hsame : ∀ {c : Command}, c.accepted? m = none →
      requests ++ (c.accepted? m).toList = requests := by
    intro c hc
    simp [hc]
  cases c with
  | execute r => exact .inl ⟨rfl, h.execute r⟩
  | flush => exact .inl ⟨rfl, by rw [hsame rfl]; exact h.flush⟩
  | getInput name => exact .inl ⟨rfl, by rw [hsame rfl]; exact h⟩
  | getOutput input width height output =>
    exact .inl ⟨rfl, by rw [hsame rfl]; exact h.getOutput input width height output⟩
  | runJob place => exact .inl ⟨rfl, by rw [hsame rfl]; exact h.runJob place⟩
  | getResult =>
    simp only [Session.step]
    rcases h.getResult with ⟨-, heq⟩ | ⟨t, -, -, heq⟩ |
      ⟨r, ok, frames, o, hr, hserved, houtcome, heq, hnext⟩
    · rw [heq]
      exact .inl ⟨rfl, by rw [hsame rfl]; exact h⟩
    · rw [heq]
      exact .inl ⟨rfl, by rw [hsame rfl]; exact h⟩
    · rw [heq]
      exact .inr ⟨o, r, handsBack?_outcomeOf houtcome, rfl, hr, ⟨ok, frames, hserved, houtcome⟩,
        hnext⟩

/-- Whatever a step hands back, the books stay in order with what it accepts. -/
theorem step_requests (h : Tracked w requests first [] s) (c : Command) :
    ∃ first', Tracked w (requests ++ (c.accepted? m).toList) first' [] (Session.step m s c).2 := by
  rcases h.step c with ⟨-, hnext⟩ | ⟨o, r, -, hnone, -, -, hnext⟩
  · exact ⟨first, hnext⟩
  · refine ⟨first + 1, ?_⟩
    rw [hnone, Option.toList_none, List.append_nil]
    exact hnext

/-- A run keeps the books in order and hands back, from the first request on, one after the other. -/
theorem run (h : Tracked w requests first [] s) (commands : List Command) :
    Tracked w (requests ++ accepted m commands)
        (first + (handedBack (run m s commands).1).length) [] (run m s commands).2 ∧
      List.Forall₂ w.HandsBack (handedBack (run m s commands).1)
        (((requests ++ accepted m commands).drop first).take
          (handedBack (run m s commands).1).length) := by
  induction commands generalizing requests first s with
  | nil => exact ⟨by simpa [accepted, handedBack, Session.run] using h, .nil⟩
  | cons c commands ih =>
    have hrun : (Session.run m s (c :: commands)) =
        ((Session.step m s c).1 :: (Session.run m (Session.step m s c).2 commands).1,
          (Session.run m (Session.step m s c).2 commands).2) := rfl
    rcases h.step c with ⟨hnone, hnext⟩ | ⟨o, r, hsome, hnone, hr, hback, hnext⟩
    · have haccepted : requests ++ accepted m (c :: commands) =
          requests ++ (c.accepted? m).toList ++ accepted m commands := by
        cases hc : c.accepted? m <;> simp [accepted, hc]
      have hhanded : handedBack (Session.run m s (c :: commands)).1 =
          handedBack (Session.run m (Session.step m s c).2 commands).1 := by
        rw [hrun]
        simp [handedBack, hnone]
      rw [haccepted, hhanded, hrun]
      exact ih hnext
    · have haccepted : accepted m (c :: commands) = accepted m commands := by
        simp [accepted, hnone]
      have hhanded : handedBack (Session.run m s (c :: commands)).1 =
          o :: handedBack (Session.run m (Session.step m s c).2 commands).1 := by
        rw [hrun]
        simp [handedBack, hsome]
      obtain ⟨htracked, hall⟩ := ih hnext
      have hhead : (requests ++ accepted m commands).drop first =
          r :: (requests ++ accepted m commands).drop (first + 1) := by
        obtain ⟨hlt, hget⟩ := List.getElem?_eq_some_iff.1 hr
        rw [List.drop_eq_getElem_cons (by simp; omega), List.getElem_append_left hlt, hget]
      rw [haccepted, hhanded, hrun]
      refine ⟨?_, ?_⟩
      · rw [List.length_cons, Nat.add_comm _ 1, ← Nat.add_assoc]
        exact htracked
      · rw [hhead, List.length_cons, List.take_succ_cons]
        exact .cons hback hall

end Tracked
end Session
end Inference
