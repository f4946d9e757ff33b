import Minotaur.Management

/-!
What a handler of the management endpoint answers. `handle` reads two of the
metrics, one after the other, so it takes what the two loads returned; other
tasks may come in between. `render` is what the text encoder makes of the
registry, and `none` its failure.
-/

namespace Minotaur

/-- Header names are in lower case, in the order of their insertion. -/
structure Response where
  status : UInt16
  headers : List (String × String)
  body : List UInt8
deriving DecidableEq, Repr

def reply (status : UInt16) (body : List UInt8) (prometheus : Bool) : Response where
  status := status
  headers :=
    [("content-type",
        if prometheus then "text/plain; version=0.0.4; charset=utf-8"
        else "text/plain; charset=utf-8"),
      ("connection", "close"), ("cache-control", "no-store")]
  body := body

def handle (render : Option (List UInt8)) (method path : String) (ready loggerErrorsTotal : Nat) :
    Response :=
  if method ≠ "GET" then
    let response := reply 405 (bytes "method not allowed\n") false
    { response with headers := response.headers ++ [("allow", "GET")] }
  else if path = "/metrics" then
    match render with
    | some buffer => reply 200 buffer true
    | none => reply 500 (bytes "render failed\n") false
  else if path = "/healthz" then reply 200 (bytes "ok\n") false
  else if path = "/readyz" then
    if ready = 1 ∧ loggerErrorsTotal = 0 then reply 200 (bytes "ready\n") false
    else reply 503 (bytes "not ready\n") false
  else reply 404 (bytes "not found\n") false

/-- `GET /readyz`. -/
def readyz (ready loggerErrorsTotal : Nat) : Response :=
  handle none "GET" "/readyz" ready loggerErrorsTotal

theorem handle_readyz (render : Option (List UInt8)) (ready loggerErrorsTotal : Nat) :
    handle render "GET" "/readyz" ready loggerErrorsTotal = readyz ready loggerErrorsTotal := rfl

theorem readyz_status (ready loggerErrorsTotal : Nat) :
    (readyz ready loggerErrorsTotal).status =
      if ready = 1 ∧ loggerErrorsTotal = 0 then 200 else 503 := by
  have hreadyz : readyz ready loggerErrorsTotal =
      if ready = 1 ∧ loggerErrorsTotal = 0 then reply 200 (bytes "ready\n") false
      else reply 503 (bytes "not ready\n") false := rfl
  rw [hreadyz]
  split_ifs <;> rfl

@[simp] theorem readyz_ok_iff {ready loggerErrorsTotal : Nat} :
    (readyz ready loggerErrorsTotal).status = 200 ↔ ready = 1 ∧ loggerErrorsTotal = 0 := by
  rw [readyz_status]
  split_ifs with hready
  · exact iff_of_true rfl hready
  · exact iff_of_false (by decide) hready

end Minotaur
