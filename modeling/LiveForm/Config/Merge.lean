import LiveForm.Value.Literal

/-!
# Merging configurations

Two mappings are merged key by key, at every depth where both have mappings. Elsewhere the
override replaces the base, if their kinds allow it.

* `mergeEntries`: the merge of two lists of entries.
* `deepMerge`: the merge of two values that have to be mappings.
* `MergeConflict`: where the kinds of base and override do not fit.
-/

namespace LiveForm

/-- Why two configurations cannot be merged. -/
inductive MergeConflict where
  /-- They are not both mappings. -/
  | roots (base override : Value.Kind)
  /-- The values at a key do not fit. -/
  | entry (key : Value) (base override : Value.Kind)

/-- The text of the conflict. There is none when its key is too long to be written out; the error
is then that of writing it. -/
def MergeConflict.message? : MergeConflict → Option String
  | .roots b o =>
    some ("Deep-merge requer dicts no nível raiz, recebido: " ++ b.name ++ " vs " ++ o.name)
  | .entry key b o => key.display?.map fun shown =>
    "Conflito de tipo na chave '" ++ shown ++ "': " ++ b.name ++ " vs " ++ o.name

/-- An override may replace a base that is not merged with it: a list replaces all but a mapping,
null replaces and is replaced by anything, numbers replace each other, and else the kinds must be
the same. -/
def replaceable (base override : Value) : Bool :=
  (override.kind = .list && base.kind ≠ .map) || base.kind = .null || override.kind = .null
    || (base.isNumber && override.isNumber) || base.kind = override.kind

mutual

/-- The merge of the values at a key. -/
def mergeAt (key base : Value) : (override : Value) → Except MergeConflict Value
  | .map o =>
    match base with
    | .map b => (mergeEntries b o).map .map
    | base =>
      if replaceable base (.map o) then .ok (.map o) else .error (.entry key base.kind .map)
  | override =>
    if replaceable base override then .ok override
    else .error (.entry key base.kind override.kind)

/-- The base with the entries of the override, in order. -/
def mergeEntries (base : Entries) : (override : List (Value × Value)) →
    Except MergeConflict Entries
  | [] => .ok base
  | (key, override) :: rest => do
    let merged ← match Value.find? key base with
      | none => .ok override
      | some value => mergeAt key value override
    mergeEntries (Value.put key merged base) rest

end

/-- The merge of two mappings. -/
def deepMerge (base override : Value) : Except MergeConflict Value :=
  match base, override with
  | .map b, .map o => (mergeEntries b o).map .map
  | base, override => .error (.roots base.kind override.kind)

end LiveForm
