/-!
# Named calls

The calls of the solver that can fail or that are counted have names, by which
failures refer to them. Calls of the same kind come in two variants, about a term
and about a node of its value, and for one formula and for several.
-/

namespace SmtModel

/-- The calls that have names. -/
inductive Call where
  | getModel
  | modelFromMap
  | boolValue
  | int64Value
  | rational64Value
  | doubleValue
  | scalarValue
  | value
  | valueAsTerm
  | nodeIsInt64
  | nodeIsRational64
  | nodeBitSize
  | tupleArity
  | mappingArity
  | functionArity
  | nodeBool
  | nodeInt64
  | nodeRational64
  | nodeDouble
  | nodeBits
  | nodeScalar
  | expandTuple
  | expandMapping
  | expandFunction
  | formulaHolds
  | formulasHold
  | definedTerms
  | implicant
  | implicants
  | generalize
  | generalizeAll
  | constant
  | printError
  deriving DecidableEq

namespace Call

/-- The name of a call. -/
def name : Call → String
  | getModel => "yices_get_model"
  | modelFromMap => "yices_model_from_map"
  | boolValue => "yices_get_bool_value"
  | int64Value => "yices_get_int64_value"
  | rational64Value => "yices_get_rational64_value"
  | doubleValue => "yices_get_double_value"
  | scalarValue => "yices_get_scalar_value"
  | value => "yices_get_value"
  | valueAsTerm => "yices_get_value_as_term"
  | nodeIsInt64 => "yices_val_is_int64"
  | nodeIsRational64 => "yices_val_is_rational64"
  | nodeBitSize => "yices_val_bitsize"
  | tupleArity => "yices_val_tuple_arity"
  | mappingArity => "yices_val_mapping_arity"
  | functionArity => "yices_val_function_arity"
  | nodeBool => "yices_val_get_bool"
  | nodeInt64 => "yices_val_get_int64"
  | nodeRational64 => "yices_val_get_rational64"
  | nodeDouble => "yices_val_get_double"
  | nodeBits => "yices_val_get_bv"
  | nodeScalar => "yices_val_get_scalar"
  | expandTuple => "yices_val_expand_tuple"
  | expandMapping => "yices_val_expand_mapping"
  | expandFunction => "yices_val_expand_function"
  | formulaHolds => "yices_formula_true_in_model"
  | formulasHold => "yices_formulas_true_in_model"
  | definedTerms => "yices_model_collect_defined_terms"
  | implicant => "yices_implicant_for_formula"
  | implicants => "yices_implicant_for_formulas"
  | generalize => "yices_generalize_model"
  | generalizeAll => "yices_generalize_model_array"
  | constant => "yices_constant"
  | printError => "yices_print_error_fd"

/-- All calls that have names. -/
def all : List Call :=
  [getModel, modelFromMap, boolValue, int64Value, rational64Value, doubleValue, scalarValue,
    value, valueAsTerm, nodeIsInt64, nodeIsRational64, nodeBitSize, tupleArity, mappingArity,
    functionArity, nodeBool, nodeInt64, nodeRational64, nodeDouble, nodeBits, nodeScalar,
    expandTuple, expandMapping, expandFunction, formulaHolds, formulasHold, definedTerms,
    implicant, implicants, generalize, generalizeAll, constant, printError]

/-- The call with a given name, if there is one. -/
def ofName? (name : String) : Option Call := all.find? (·.name = name)

@[simp]
theorem ofName?_name (call : Call) : ofName? call.name = some call := by
  cases call <;> decide +kernel

end Call

end SmtModel
