import Mathlib.Init

namespace ClickNBack.Core

/-- A value in the details of an error; timestamps and amounts stand for the strings
that they are printed as. -/
inductive Detail
  | text (s : String)
  | isoformat (instant : Nat)
  | decimal (cents : Int)
deriving DecidableEq

structure HttpError where
  statusCode : Nat
  code : String
  message : String
  details : List (String × Detail)
deriving DecidableEq

variable (code message : String) (details : List (String × Detail))

def forbiddenError : HttpError := ⟨403, "FORBIDDEN", message, details⟩

def notFoundError : HttpError := ⟨404, "NOT_FOUND", message, details⟩

def businessRuleViolationError : HttpError := ⟨409, code, message, details⟩

def unprocessableEntityError : HttpError := ⟨422, code, message, details⟩

def internalServerError (now : Nat) : HttpError :=
  ⟨500, "INTERNAL_SERVER_ERROR",
    "An unexpected error occurred. Our team has been notified. Please retry later.",
    [("request_id", .text "not available"), ("timestamp", .isoformat now)]⟩

structure PaginationOut where
  offset : Nat
  limit : Nat
  total : Nat
deriving DecidableEq

end ClickNBack.Core
