/-!
The causes for which an operation fails, with their messages. Most arise at the authority; the ones
that mean a rejected identity are told apart because best-effort work carries on after them.
-/

namespace Coverage

inductive Fault where
  | notTimestamp (text : String)
  | invertedWindow (opens closes : String)
  | notConsumer
  deriving DecidableEq, Repr

inductive Failure where
  | network (detail : String)
  | unauthorized
  | forbidden
  | expiredIdentity
  | remoteServer (code : UInt16)
  | rateLimited (retryAfter : Option UInt64)
  | badCertificate (detail : String)
  | notRegistered
  | watch (detail : String)
  | unreadable
  | value (fault : Fault)
  deriving DecidableEq, Repr

def Fault.message : Fault → Option String
  | .notTimestamp text => some ("invalid timestamp: " ++ text)
  | .invertedWindow opens closes =>
    some ("invalid validity range: begin " ++ opens ++ " is after end " ++ closes)
  | .notConsumer => none

namespace Failure

def message : Failure → Option String
  | .network detail => some ("network error: " ++ detail)
  | .unauthorized => some "unauthorized: invalid credentials for request"
  | .forbidden => some "forbidden: invalid credentials for request"
  | .expiredIdentity => some "identity certificate has expired"
  | .remoteServer code => some ("remote server error (HTTP error code " ++ toString code ++ ")")
  | .rateLimited none => some "server rate limit exceeded"
  | .rateLimited (some seconds) =>
    some ("server rate limit exceeded (expires in " ++ toString seconds ++ " seconds)")
  | .badCertificate detail => some ("bad certificate: " ++ detail)
  | .notRegistered => some "system is not registered"
  | .watch detail => some ("watch error: " ++ detail)
  | .unreadable => none
  | .value fault => fault.message

def isAuthFailure : Failure → Bool
  | .unauthorized | .forbidden | .expiredIdentity => true
  | _ => false

end Failure

end Coverage
