import PuzzleShell.Prompt.Error

/-!
# What a field stands for

A field starts from a text. Its name may go on to a character of the text or to one of the
properties that every text has. Behind these are the objects of the host in which the shell runs,
such as the class of texts and its methods. An object is known here by a number only; what it holds
and how it is shown is up to the host.
-/

namespace PuzzleShell.Prompt

inductive Value where
  | text (cs : List Char)
  | object (id : Nat)
deriving DecidableEq, Repr

/-- What stands in brackets. -/
inductive Key where
  | position (n : Nat)
  | name (s : String)
deriving DecidableEq, Repr

/-- The answers of the host. Where an object is shown with its address, one address is meant
throughout. -/
structure Objects where
  ofText (cs : List Char) (property : String) : Value
  property (id : Nat) (name : String) : Except PromptError Value
  item (id : Nat) (key : Key) : Except PromptError Value
  shown (id : Nat) : Except PromptError (List Char)
  literal (id : Nat) : Except PromptError (List Char)
  laidOut (id : Nat) (layout : List Char) : Except PromptError (List Char)

def textProperties : List String := [
  "__add__", "__class__", "__contains__", "__delattr__", "__dir__", "__doc__", "__eq__",
  "__format__", "__ge__", "__getattribute__", "__getitem__", "__getnewargs__", "__getstate__",
  "__gt__", "__hash__", "__init__", "__init_subclass__", "__iter__", "__le__", "__len__",
  "__lt__", "__mod__", "__mul__", "__ne__", "__new__", "__reduce__", "__reduce_ex__", "__repr__",
  "__rmod__", "__rmul__", "__setattr__", "__sizeof__", "__str__", "__subclasshook__",
  "capitalize", "casefold", "center", "count", "encode", "endswith", "expandtabs", "find",
  "format", "format_map", "index", "isalnum", "isalpha", "isascii", "isdecimal", "isdigit",
  "isidentifier", "islower", "isnumeric", "isprintable", "isspace", "istitle", "isupper", "join",
  "ljust", "lower", "lstrip", "maketrans", "partition", "removeprefix", "removesuffix", "replace",
  "rfind", "rindex", "rjust", "rpartition", "rsplit", "rstrip", "split", "splitlines",
  "startswith", "strip", "swapcase", "title", "translate", "upper", "zfill"]

def textDoc : String := "\n".intercalate [
  "str(object='') -> str",
  "str(bytes_or_buffer[, encoding[, errors]]) -> str",
  "",
  "Create a new string object from the given object. If encoding or",
  "errors is specified, then the object must expose a data buffer",
  "that will be decoded using the given encoding and error handler.",
  "Otherwise, returns the result of object.__str__() (if defined)",
  "or repr(object).",
  "encoding defaults to sys.getdefaultencoding().",
  "errors defaults to 'strict'."]

/-- A small host. Object 0 is the class of texts, of which the names and the documentation are
known; whatever else a text has is object 1, of which nothing is known. -/
def Objects.small : Objects :=
  let known := [("__name__", "str"), ("__qualname__", "str"), ("__module__", "builtins"),
    ("__doc__", textDoc)]
  let form (id : Nat) := (if id = 0 then "<class 'str'>" else "<method>").toList
  { ofText _ property :=
      if property = "__doc__" then .text textDoc.toList
      else .object (if property = "__class__" then 0 else 1)
    property id name := match if id = 0 then known.lookup name else none with
      | some value => .ok (.text value.toList)
      | none => .error (.refused "AttributeError" s!"type object 'str' has no attribute '{name}'")
    item _ _ := .error (.refused "TypeError" "type 'str' is not subscriptable")
    shown id := .ok (form id)
    literal id := .ok (form id)
    laidOut id layout :=
      if layout.isEmpty then .ok (form id)
      else .error (.refused "TypeError" "unsupported format string passed to type.__format__") }

/-- One step from a value to another, or what is wrong with the text of the step. -/
inductive Access where
  | item (key : Key)
  | property (name : String)
  | broken (e : PromptError)
deriving DecidableEq, Repr

def Objects.follow (objects : Objects) : Value → Access → Except PromptError Value
  | _, .broken e => .error e
  | .object id, .item key => objects.item id key
  | .object id, .property name => objects.property id name
  | .text cs, .item (.position n) => match cs[n]? with
    | some c => .ok (.text [c])
    | none => .error .outOfRange
  | .text _, .item (.name _) => .error .textIndex
  | .text cs, .property name =>
    if name ∈ textProperties then .ok (objects.ofText cs name) else .error (.noAttribute name)

end PuzzleShell.Prompt
