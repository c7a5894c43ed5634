/-! Domain errors of the gateway (`pkg/errors`). A service returns either such an
error, which the handlers map by its code, or a plain wrapped one. -/

namespace KnowledgeCompanion.AppErrors

structure AppError where
  status : Nat
  code : String
  message : String
deriving DecidableEq, Repr

def codeInternalError := "INTERNAL_ERROR"
def codeBadRequest := "BAD_REQUEST"
def codeValidationError := "VALIDATION_ERROR"
def codeUnauthorized := "UNAUTHORIZED"
def codeForbidden := "FORBIDDEN"
def codeNotFound := "NOT_FOUND"
def codeConflict := "CONFLICT"
def codeInvalidStateTransition := "INVALID_STATE_TRANSITION"
def codeTaskNotRetryable := "TASK_NOT_RETRYABLE"
def codeRetryTooFrequent := "RETRY_TOO_FREQUENT"
def codeDispatchFailed := "DISPATCH_FAILED"
def codeWorkerUnavailable := "WORKER_UNAVAILABLE"

def badRequest (message : String) : AppError := ⟨400, codeBadRequest, message⟩
def unauthorized (message : String) : AppError := ⟨401, codeUnauthorized, message⟩
def forbidden (message : String) : AppError := ⟨403, codeForbidden, message⟩
def notFound (resource : String) : AppError := ⟨404, codeNotFound, resource ++ " not found"⟩
def conflict (message : String) : AppError := ⟨409, codeConflict, message⟩
def internal (message : String) : AppError := ⟨500, codeInternalError, message⟩
def fileTooLarge (message : String) : AppError := ⟨413, "FILE_TOO_LARGE", message⟩
def unsupportedMediaType (message : String) : AppError := ⟨415, "FILE_UNSUPPORTED_TYPE", message⟩
def taskNotRetryable (message : String) : AppError := ⟨400, codeTaskNotRetryable, message⟩
def retryTooFrequent (message : String) : AppError := ⟨429, codeRetryTooFrequent, message⟩
def dispatchFailed (message : String) : AppError := ⟨500, codeDispatchFailed, message⟩
def workerUnavailable (message : String) : AppError := ⟨503, codeWorkerUnavailable, message⟩

/-- What a service call returns in the place of an `error`. -/
inductive Err
  | app (e : AppError)
  | plain (message : String)
deriving DecidableEq, Repr

def Err.text : Err → String
  | .app e => e.code ++ ": " ++ e.message
  | .plain message => message

end KnowledgeCompanion.AppErrors
