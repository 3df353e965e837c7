import UriTemplates.Text.Quoted

/-!
# Errors

Why an operation fails, as causes that carry what the reader of the message needs, and
their wording in one place (`Error.message`). A URI that simply does not match a template
is no error.
-/

namespace UriTemplates

/-- Why a text is no template, or no part of one. -/
inductive Malformation where
  /-- A variable specification without any text. -/
  | emptySpecification
  /-- A variable specification whose modifier cannot be read. -/
  | unreadableModifier (specification : Text)
  /-- A variable without a name. -/
  | emptyName
  /-- A variable name outside the grammar of names. -/
  | invalidName (name : Text)
  /-- A variable both truncated and exploded. -/
  | truncatedAndExploded (name : Text)
  /-- A variable truncated to a length that is not allowed. -/
  | lengthOutOfRange (name : Text) (length : Int)
  /-- Literal text with a character that may not stand at this offset. -/
  | invalidLiteral (text : Text) (offset : Nat)
  /-- An expression without variables. -/
  | noVariables
  /-- A brace of the template that belongs to no expression. -/
  | strayBrace (template : Text) (offset : Nat)
  /-- Literal text of a template, from an offset on, with a character that may not stand
  in it. -/
  | invalidLiteralAt (template : Text) (start : Nat) (text : Text) (offset : Nat)
  deriving DecidableEq

/-- A composite shape that a variable can be declared to have. -/
inductive Composite where
  /-- An ordered list of texts. -/
  | list
  /-- An ordered map from texts to texts. -/
  | map
  deriving DecidableEq

/-- Why the authority of a URI reference cannot be read. -/
inductive AuthorityFault where
  /-- Brackets that do not enclose the host. -/
  | brackets
  /-- A host of a future address format that does not follow its grammar. -/
  | futureAddress
  /-- A bracketed host that is no address. -/
  | noAddress (host : Text)
  /-- A bracketed host that is an address of version 4. -/
  | bracketedVersion4
  /-- A character that becomes a delimiter when the authority is normalized. -/
  | hiddenDelimiter (authority : Text)
  deriving DecidableEq

/-- Why an operation fails. -/
inductive Error where
  /-- A text is no template, or no part of one. -/
  | malformed (cause : Malformation)
  /-- A template is given by a value that is no text. -/
  | notText (kind : String)
  /-- A value has the name under which the template of an expansion stands. -/
  | templateTwice
  /-- An expression has an operator that is set aside for future use. -/
  | reservedOperator (operator : Char) (expression : Text) (offset : Nat)
  /-- A text is no operator. -/
  | unknownOperator (text : Text)
  /-- A length is written with more digits than a number may have. -/
  | tooManyDigits (count : Nat)
  /-- A value of the environment is neither a scalar nor a list or map of scalars. -/
  | invalidValue
  /-- A mapping of the environment has a collection of a kind as a key. -/
  | collectionKey (kind : String)
  /-- A collection of variable names is not made of names. -/
  | invalidNames
  /-- A truncated variable has a list or a map as its value. -/
  | truncatedComposite (name : Text)
  /-- A truncated variable is declared to be a list or a map. -/
  | truncatedDeclared (name : Text) (shape : Composite)
  /-- The occurrences of a variable have values that contradict each other. -/
  | inconsistentBinding (name : Text)
  /-- A variable has keys but no texts to go with them. -/
  | keysWithoutItems (part index : Nat)
  /-- The texts of a map run out before its keys do. -/
  | tooFewItems
  /-- A text that a node of a pattern matched cannot be divided in the way that is written. -/
  | lostSpan (division span : Text)
  /-- A node of a pattern that took no part in a match was to be divided. -/
  | absentSpan
  /-- A repetition asks for a number of further elements other than none or one. -/
  | leastRepetitions (count : Int)
  /-- A reference is to be resolved against a base without a scheme. -/
  | relativeBase (base : Text)
  /-- The authority of a URI reference cannot be read. -/
  | invalidAuthority (fault : AuthorityFault)
  /-- A template is to be taken out of a table that does not hold it. -/
  | unknownTemplate (template : Text)
  /-- A variable is asked for that has no binding. -/
  | unbound (name : Text)
  deriving DecidableEq

instance : Inhabited Error :=
  ⟨.invalidValue⟩

/-- The character at an offset, as a text. -/
def Text.characterAt (text : Text) (offset : Nat) : Text :=
  (text.drop offset).take 1

/-- The wording for literal text outside any template. -/
def Malformation.invalidLiteralMessage (text : Text) (offset : Nat) : String :=
  String.join
    ["Invalid URI template literal ", text.quoted.toString, ": unexpected ",
      (text.characterAt offset).quoted.toString, " at offset ", ToString.toString offset]

/-- The wording of a malformation. -/
def Malformation.message : Malformation → String
  | .emptySpecification => "varspec cannot be empty"
  | .unreadableModifier specification =>
    String.join ["The specified varspec is not valid: ", specification.toString]
  | .emptyName => "Variable name cannot be empty"
  | .invalidName name =>
    String.join
      ["Variable name '", name.toString,
        "' must match the varname format described in RFC 6570"]
  | .truncatedAndExploded name =>
    String.join
      ["Variable '", name.toString,
        "' cannot combine a prefix modifier with the explode modifier"]
  | .lengthOutOfRange name length =>
    String.join
      ["Prefix length for '", name.toString, "' must be between 1 and 9999, got ",
        ToString.toString length]
  | .invalidLiteral text offset => invalidLiteralMessage text offset
  | .noVariables => "An expression must name at least one variable"
  | .strayBrace template offset =>
    String.join
      ["Malformed expression in template ", template.quoted.toString, " at offset ",
        ToString.toString offset,
        ": braces must enclose an operator and a comma-separated list of variable names"]
  | .invalidLiteralAt template start text offset =>
    String.join
      ["Invalid literal in template ", template.quoted.toString, " at offset ",
        ToString.toString start, ": ", invalidLiteralMessage text offset]

/-- The name of a composite shape. -/
def Composite.name : Composite → String
  | .list => "list"
  | .map => "map"

/-- The wording of a fault in an authority. -/
def AuthorityFault.message : AuthorityFault → String
  | .brackets => "Invalid IPv6 URL"
  | .futureAddress => "IPvFuture address is invalid"
  | .noAddress host =>
    String.join [host.quoted.toString, " does not appear to be an IPv4 or IPv6 address"]
  | .bracketedVersion4 => "An IPv4 address cannot be in brackets"
  | .hiddenDelimiter authority =>
    String.join
      ["netloc '", authority.toString, "' contains invalid characters under NFKC normalization"]

/-- The wording of an error. -/
def Error.message : Error → String
  | .malformed cause => cause.message
  | .notText kind => String.join ["template must be a str, not ", kind]
  | .templateTwice => "expand_template() got multiple values for argument 'template'"
  | .reservedOperator operator expression offset =>
    String.join
      ["Operator is reserved for future expansion: ", operator.toString, " (in ",
        expression.quoted.toString, " at offset ", ToString.toString offset, ")"]
  | .unknownOperator text =>
    String.join [text.quoted.toString, " is not a valid ExpansionKind"]
  | .tooManyDigits count =>
    String.join
      ["Exceeds the limit (4300 digits) for integer string conversion: value has ",
        ToString.toString count,
        " digits; use sys.set_int_max_str_digits() to increase the limit"]
  | .invalidValue => "Invalid variable value"
  | .collectionKey kind => String.join ["unhashable type: '", kind, "'"]
  | .invalidNames => "Invalid collection of variable names"
  | .truncatedComposite name =>
    String.join ["Cannot apply prefix modifier to composite value '", name.toString, "'"]
  | .truncatedDeclared name shape =>
    String.join
      ["Cannot treat variable '", name.toString, "' with a prefix modifier as a ", shape.name]
  | .inconsistentBinding name =>
    String.join
      ["The URI contains the variable '", name.toString,
        "' more than once with different values"]
  | .keysWithoutItems part index =>
    String.join
      ["Slot(part=", ToString.toString part, ", variable=", ToString.toString index,
        ", role=<Role.ITEM: 'item'>)"]
  | .tooFewItems => "list index out of range"
  | .lostSpan division span =>
    String.join
      ["Probe ", division.quoted.toString, " failed on a matched span ", span.quoted.toString]
  | .absentSpan => "expected string or bytes-like object, got 'NoneType'"
  | .leastRepetitions count =>
    String.join ["min_tail must be 0 or 1, got ", ToString.toString count]
  | .relativeBase base => String.join ["Base URI must be absolute: ", base.quoted.toString]
  | .invalidAuthority fault => fault.message
  | .unknownTemplate template => String.join ["Unknown template: ", template.toString]
  | .unbound name => name.toString

end UriTemplates
