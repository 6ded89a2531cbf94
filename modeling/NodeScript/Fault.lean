import NodeScript.Decimal.Integer
import NodeScript.Text.Quoted

namespace NodeScript

inductive Fault
  | integerTooLong
  | numeralTooLong (digits : Nat)
  | integerTooLarge
  | notInteger (text : Text)
  | notNumeric (type : String)
  | notFloat (text : Text)
  | notReal (type : String)
  | noSum (left right : String)
  /-- To a text or a list, only another one can be joined. -/
  | cannotJoin (left right : String)
  | nanToInteger
  | infinityToInteger
  | notComparable (relation : String) (type : String)
  | badSeed
  /-- Lone halves of surrogate pairs, `count` of them from `position` on, have no octets. -/
  | unencodable (first : Half) (position count : Nat)
  /-- A text was chosen as the threshold of the log, but names no level. -/
  | unknownLevel (text : Text)
  /-- The threshold of the log is neither a level nor a text; it is shown in this form. -/
  | badLevel (shown : String)
  | nestedTooDeep (shape : String)
  /-- A value has too many levels for a text, for a literal or for a copy. -/
  | textTooDeep
  | literalTooDeep
  | copyTooDeep
  | nullInPath
  deriving DecidableEq, Repr

namespace Fault

private def limitText : String :=
  s!"Exceeds the limit ({Decimal.digitLimit} digits) for integer string conversion"

private def limitHint : String := "use sys.set_int_max_str_digits() to increase the limit"

private def depthText : String := "maximum recursion depth exceeded"

def message : Fault → String
  | integerTooLong => s!"{limitText}; {limitHint}"
  | numeralTooLong digits => s!"{limitText}: value has {digits} digits; {limitHint}"
  | integerTooLarge => "int too large to convert to float"
  | notInteger text =>
    let shown := String.ofList ((Text.quote text).toList.take 200)
    s!"invalid literal for int() with base 10: {shown}"
  | notNumeric type =>
    s!"int() argument must be a string, a bytes-like object or a real number, not '{type}'"
  | notFloat text => s!"could not convert string to float: {Text.quote text}"
  | notReal type => s!"float() argument must be a string or a real number, not '{type}'"
  | noSum left right => s!"unsupported operand type(s) for +: '{left}' and '{right}'"
  | cannotJoin left right => s!"can only concatenate {left} (not \"{right}\") to {left}"
  | nanToInteger => "cannot convert float NaN to integer"
  | infinityToInteger => "cannot convert float infinity to integer"
  | notComparable relation type =>
    s!"'{relation}' not supported between instances of 'int' and '{type}'"
  | badSeed =>
    "The only supported seed types are: None,\nint, float, str, bytes, and bytearray."
  | unencodable first position count =>
    let what :=
      if count = 1 then
        let shown := String.ofList (Text.hexDigits 4 first.code)
        s!"character '\\u{shown}' in position {position}"
      else s!"characters in position {position}-{position + count - 1}"
    s!"'utf-8' codec can't encode {what}: surrogates not allowed"
  | unknownLevel text => s!"Unknown level: {Text.quote text}"
  | badLevel shown => s!"Level not an integer or a valid string: {shown}"
  | nestedTooDeep shape => s!"{depthText} while decoding a JSON {shape} from a unicode string"
  | textTooDeep => s!"{depthText} while getting the repr of an object"
  | literalTooDeep => s!"{depthText} while encoding a JSON object"
  | copyTooDeep => depthText
  | nullInPath => "embedded null byte"

end Fault

end NodeScript
