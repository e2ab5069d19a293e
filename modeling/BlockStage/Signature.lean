import BlockStage.Mutation

/-!
Signatures of procedures: parameter names, argument ids and defaults, position by position, and
whether the procedure runs in warp mode. A signature is read from the mutation of a prototype.
-/

namespace BlockStage

structure Signature where
  names : List String
  ids : List String
  defaults : List Value
  warp : Bool

/-- The lists of a mutation, by the names of its fields. -/
inductive ArgumentList where
  | names
  | ids
  | defaults
  deriving DecidableEq, Repr

def ArgumentList.field : ArgumentList → String
  | names => "argumentnames"
  | ids => "argumentids"
  | defaults => "argumentdefaults"

/-- Why a mutation has no signature. -/
inductive MutationFault where
  | undecodable (list : ArgumentList) (error : Json.Error)
  | nameCount (names ids : Nat)
  | defaultCount (defaults ids : Nat)

def MutationFault.reason : MutationFault → String
  | undecodable list error => list.field ++ ": " ++ error.message
  | nameCount names ids =>
    toString names ++ " argument names for " ++ toString ids ++ " argument ids"
  | defaultCount defaults ids =>
    toString defaults ++ " defaults for " ++ toString ids ++ " arguments"

structure MutationError where
  block : String
  fault : MutationFault

def MutationError.message (e : MutationError) : String :=
  "malformed mutation on block " ++ e.block ++ ": " ++ e.fault.reason

namespace Signature

def size (s : Signature) : Nat := s.ids.length

/-- A list of a mutation; a text that is not there holds no items. -/
def decodeList (list : ArgumentList) (decode : Json.Decoder α) :
    Option String → Except MutationFault (List α)
  | none => .ok []
  | some text =>
    match Json.decodeText (Json.Decoder.list decode) text with
    | .ok items => .ok items
    | .error error => .error (.undecodable list error)

/-- The signature that a mutation describes. Parameters without a default get the empty text. -/
def decode? (m : Mutation) : Except MutationFault Signature := do
  let names ← decodeList .names .string m.argumentNames
  let ids ← decodeList .ids .string m.argumentIds
  let defaults ← decodeList .defaults Value.decode m.argumentDefaults
  if names.length ≠ ids.length then throw (.nameCount names.length ids.length)
  if ids.length < defaults.length then throw (.defaultCount defaults.length ids.length)
  return {
    names, ids
    defaults := defaults ++ List.replicate (ids.length - defaults.length) (.text "")
    warp := m.warp.any Value.toBool }

/-- Names, ids and defaults of a decoded signature stand side by side. -/
theorem aligned_of_decode? {m : Mutation} {s : Signature} (h : decode? m = .ok s) :
    s.names.length = s.ids.length ∧ s.defaults.length = s.ids.length := by
  simp only [decode?, bind, Except.bind, pure, Except.pure, throw, throwThe,
    MonadExceptOf.throw] at h
  repeat' split at h
  all_goals simp at h
  subst h
  simp
  omega

/-- The signature of the prototype with the given id. -/
def ofMutation (block : String) (m : Mutation) : Except MutationError Signature :=
  match decode? m with
  | .ok signature => .ok signature
  | .error fault => .error ⟨block, fault⟩

end Signature

end BlockStage
