import DataBinding.Expr

/-!
# Errors

Each way in which an operation can fail is a constructor that carries what the failure is about; `message` gives the
wording.
-/

namespace DataBinding

/-- When an expression was found to be of no use. -/
inductive Phase
  | rebase | evaluation
  deriving DecidableEq

def Phase.name : Phase → String
  | rebase => "stream rewrite"
  | evaluation => "evaluation"

inductive ExpressionError
  /-- A node of this kind has no meaning in this phase. -/
  | unsupported (kind : ExprKind) (phase : Phase)
  /-- A node of this kind denotes no place that could be written. -/
  | notAssignable (kind : ExprKind)
  /-- A stream was to be written. -/
  | readOnlyStream
  /-- No converter has the name. -/
  | unknownConverter (name : String)
  deriving DecidableEq

def ExpressionError.message : ExpressionError → String
  | unsupported kind phase => kind.name ++ " expression is not supported during " ++ phase.name
  | notAssignable kind => kind.name ++ " expression is not assignable"
  | readOnlyStream => "Stream is read-only"
  | unknownConverter name => "Value converter '" ++ name ++ "' is not registered"

/-- What makes a tree that was received as data unfit for use. -/
inductive ValidationError
  | missingField (field : String)
  | templateArity (segments parts : Nat)
  | arityMismatch (field : String) (expected actual : Nat)
  | tooDeep (limit : Nat)
  | malformed
  deriving DecidableEq

def ValidationError.message : ValidationError → String
  | missingField field => "Required field '" ++ field ++ "' is missing"
  | templateArity segments parts =>
    "Template has " ++ toString segments ++ " literal segments for " ++ toString parts ++ " expressions"
  | arityMismatch field expected actual =>
    "Field '" ++ field ++ "' has " ++ toString actual ++ " entries, expected " ++ toString expected
  | tooDeep limit => "Expression nesting exceeds maximum depth of " ++ toString limit
  | malformed => "Malformed expression JSON"

/-- What makes an attribute unfit for a binding. -/
inductive CompileError
  | unsupportedCommand (command : String)
  | invalidAttribute (rawName : String)
  deriving DecidableEq

def CompileError.message : CompileError → String
  | unsupportedCommand command => "Binding command '" ++ command ++ "' is not supported"
  | invalidAttribute rawName => "Attribute '" ++ rawName ++ "' does not carry a binding command"

/-- What makes a configuration unfit for use. -/
inductive ConfigError
  | unparsable
  | unreadable
  | marker (c : Char)
  | pruneThreshold
  deriving DecidableEq

def ConfigError.message : ConfigError → String
  | unparsable => "parse config"
  | unreadable => "read"
  | marker c => "stream_marker '" ++ String.ofList [c] ++ "' must not be alphanumeric, whitespace, '.' or '_'"
  | pruneThreshold => "registry.prune_threshold must be at least 1"

/-- Every error of the library. -/
inductive BindError
  | expression (e : ExpressionError)
  | validation (e : ValidationError)
  | compile (e : CompileError)
  | notBound (property : String)
  | config (e : ConfigError)
  deriving DecidableEq

namespace BindError

def message : BindError → String
  | expression e => "Expression error: " ++ e.message
  | validation e => "Validation error: " ++ e.message
  | compile e => "Compile error: " ++ e.message
  | notBound property => "Binding to '" ++ property ++ "' is not bound"
  | config e => "Configuration error: " ++ e.message

def isExpression : BindError → Bool
  | expression _ => true
  | _ => false

def isValidation : BindError → Bool
  | validation _ => true
  | _ => false

def isCompile : BindError → Bool
  | compile _ => true
  | _ => false

def isUnsupported : BindError → Bool
  | expression (.unsupported ..) => true
  | _ => false

def isNotAssignable : BindError → Bool
  | expression (.notAssignable _) => true
  | _ => false

def isReadOnlyStream : BindError → Bool
  | expression .readOnlyStream => true
  | _ => false

/-- Whether the error reports a misuse of expressions rather than bad data. -/
def isProgrammerError (e : BindError) : Bool := e.isUnsupported || e.isNotAssignable || e.isReadOnlyStream

end BindError

end DataBinding
