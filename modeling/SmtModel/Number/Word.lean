/-!
# Integers as machine words

An integer is a word of a given width exactly when it lies in the range of that
width. Nothing here wraps or clamps: an integer out of range is no word.
-/

namespace SmtModel.Word

/-- An integer as a signed word of 32 bits. -/
def int32? (value : Int) : Option Int32 :=
  if Int32.minValue.toInt ≤ value ∧ value ≤ Int32.maxValue.toInt then
    some (Int32.ofInt value)
  else none

/-- An integer as a signed word of 64 bits. -/
def int64? (value : Int) : Option Int64 :=
  if Int64.minValue.toInt ≤ value ∧ value ≤ Int64.maxValue.toInt then
    some (Int64.ofInt value)
  else none

/-- An integer as an unsigned word of 8 bits. -/
def uint8? (value : Int) : Option UInt8 :=
  if 0 ≤ value ∧ value < UInt8.size then some (UInt8.ofNat value.toNat) else none

/-- An integer as an unsigned word of 32 bits. -/
def uint32? (value : Int) : Option UInt32 :=
  if 0 ≤ value ∧ value < UInt32.size then some (UInt32.ofNat value.toNat) else none

/-- An integer as an unsigned word of 64 bits. -/
def uint64? (value : Int) : Option UInt64 :=
  if 0 ≤ value ∧ value < UInt64.size then some (UInt64.ofNat value.toNat) else none

end SmtModel.Word
