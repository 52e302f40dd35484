/-!
# Exceptions

The exceptions that the modelled code throws or lets through.  A function that may throw returns
an `Except Exn`; which handler catches what is stated where the handler is modelled.
-/

namespace Ngp

/-- The exceptions of the program: `LockTimeout`, `std::runtime_error` with its text,
`std::bad_alloc` and `websocketpp::exception` with its text. The last two are not
`std::runtime_error`s. -/
inductive Exn where
  | lockTimeout
  | runtimeError (what : String)
  | badAlloc
  | websocketpp (what : String)
  deriving DecidableEq, Repr

end Ngp
