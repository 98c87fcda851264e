import DraftDesk.Requests

/-!
# Logged requests

A call makes one request and then has only the answer to go by, so it is a function of the answer
(`request_eq_map`). A transport with a log shows which requests a call makes, whatever it answers
and whatever state of its own it answers from.
-/

namespace DraftDesk

/-- What a call makes of the answer to a request. -/
def received {α : Type} (path : String) (ofJson? : Json → Option α) :
    Except String String → Except RequestError α
  | .error reason => .error (.transport path reason)
  | .ok body =>
    match Json.decode? ofJson? body with
    | some a => .ok a
    | none => .error (.undecodable path)

theorem request_eq_map {m : Type → Type} [Monad m] [LawfulMonad m] (transport : Transport m)
    {α : Type} (r : Request) (ofJson? : Json → Option α) :
    request transport r ofJson? = received r.path ofJson? <$> transport r := by
  rw [request, map_eq_pure_bind]
  apply bind_congr
  intro answer
  cases answer with
  | error reason => rfl
  | ok body =>
    dsimp only [received]
    cases Json.decode? ofJson? body <;> rfl

/-- Answers as another transport does, and keeps the requests that were made, in order. -/
def Transport.logged {σ : Type} (transport : Transport (StateM σ)) :
    Transport (StateT (List Request) (StateM σ)) :=
  fun r made => do return (← transport r, made ++ [r])

/-- Whatever is made of an answer, the log has the one request that was answered. -/
theorem run_map_logged {σ α : Type} (transport : Transport (StateM σ)) (r : Request)
    (use : Except String String → α) (made : List Request) (now : σ) :
    ((use <$> transport.logged r).run made).run now =
      ((use ((transport r).run now).1, made ++ [r]), ((transport r).run now).2) := rfl

end DraftDesk
