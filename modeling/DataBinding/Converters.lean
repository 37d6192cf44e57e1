import DataBinding.Evaluation

/-!
# Stock converters

Converters that a host can register by the sort of change that they make. All but `wrap` leave alone what is assigned
through them.
-/

namespace DataBinding

inductive StockConverter
  /-- The text of the value, with the ASCII letters in upper case. -/
  | upper
  /-- The texts of the value and the arguments, with a hyphen between two. -/
  | join
  /-- The first argument. -/
  | first
  /-- The text of the value and the number of arguments between angle brackets; back, the value and the arguments. -/
  | wrap
  deriving DecidableEq

def StockConverter.converter : StockConverter → Converter
  | upper => { toView := fun v _ => .text (v.display.map Char.toUpper) }
  | join => { toView := fun v args => .text ("-".intercalate ((v :: args).map Value.display)) }
  | first => { toView := fun _ args => args.headD .undefined }
  | wrap =>
    { toView := fun v args => .text ("<" ++ v.display ++ "/" ++ toString args.length ++ ">")
      fromView := fun v args => .array (v :: args) }

end DataBinding
