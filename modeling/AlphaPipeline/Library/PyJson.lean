import Mathlib.Tactic

/-!
# JSON values as Python sees them

The values `json.loads` returns. An object is given by its fields in key order, each key
once, so that `==` on objects is field by field. A float is the exact number it stands for;
integers are taken to lie in the range of floats. `True == 1 == 1.0` holds, as in Python.
-/
namespace PyJson

inductive Json where
  | null
  | bool (b : Bool)
  | int (n : Int)
  | float (x : ℚ)
  | str (s : String)
  | arr (items : List Json)
  | obj (fields : List (String × Json))

/-- The exceptions the modelled code raises. -/
inductive PyError where
  | valueError (message : String)
  | runtimeError (message : String)
  | assertionError (message : String)
  | keyError (key : String)
  | typeError
  | attributeError
  | indexError
  | zeroDivisionError
  | statisticsError
  deriving DecidableEq, Repr

namespace Json

/-- The numeric value; a bool is an int in Python. -/
def number? : Json → Option ℚ
  | .bool b => some (if b then 1 else 0)
  | .int n => some n
  | .float x => some x
  | _ => none

def str? : Json → Option String
  | .str s => some s
  | _ => none

def items? : Json → Option (List Json)
  | .arr items => some items
  | _ => none

def fields? : Json → Option (List (String × Json))
  | .obj fields => some fields
  | _ => none

/-- `isinstance(value, dict)`. -/
def isDict (value : Json) : Bool := value.fields?.isSome

/-- A non-empty string. -/
def isText : Json → Bool
  | .str s => s ≠ ""
  | _ => false

/-- `type(a) is type(b)`. -/
def sameType : Json → Json → Bool
  | .null, .null => true
  | .bool _, .bool _ => true
  | .int _, .int _ => true
  | .float _, .float _ => true
  | .str _, .str _ => true
  | .arr _, .arr _ => true
  | .obj _, .obj _ => true
  | _, _ => false

/-- `bool(value)`. -/
def truthy : Json → Bool
  | .null => false
  | .bool b => b
  | .int n => n ≠ 0
  | .float x => x ≠ 0
  | .str s => s ≠ ""
  | .arr items => !items.isEmpty
  | .obj fields => !fields.isEmpty

/-- Whether a value may be in a set. -/
def hashable : Json → Bool
  | .arr _ => false
  | .obj _ => false
  | _ => true

mutual

/-- `a == b`. -/
def eq : Json → Json → Bool
  | .null, .null => true
  | .str s, .str t => s == t
  | .arr xs, .arr ys => eqItems xs ys
  | .obj xs, .obj ys => eqFields xs ys
  | .bool b, y => y.number? == some (if b then 1 else 0)
  | .int n, y => y.number? == some (n : ℚ)
  | .float x, y => y.number? == some x
  | _, _ => false

def eqItems : List Json → List Json → Bool
  | [], [] => true
  | x :: xs, y :: ys => eq x y && eqItems xs ys
  | _, _ => false

def eqFields : List (String × Json) → List (String × Json) → Bool
  | [], [] => true
  | (k, x) :: xs, (l, y) :: ys => k == l && eq x y && eqFields xs ys
  | _, _ => false

end

/-- `key in value`. -/
def hasKey (value : Json) (key : String) : Bool := ((value.fields?.getD []).lookup key).isSome

/-- `value.get(key, default)`; `default` also where there is no dict, which callers check. -/
def fieldOr (value : Json) (key : String) (default : Json) : Json :=
  ((value.fields?.getD []).lookup key).getD default

/-- `value.get(key)`, likewise. -/
def field (value : Json) (key : String) : Json := value.fieldOr key .null

/-- `value.get(key)` where nothing has checked that there is a dict. -/
def get (value : Json) (key : String) : Except PyError Json :=
  match value with
  | .obj _ => .ok (value.field key)
  | _ => .error .attributeError

/-- `value[key]`. -/
def item (value : Json) (key : String) : Except PyError Json :=
  match value with
  | .obj fields => match fields.lookup key with
    | some v => .ok v
    | none => .error (.keyError key)
  | _ => .error .typeError

/-- `value.pop(key, None)`, for what it leaves. -/
def without (value : Json) (key : String) : Json :=
  match value with
  | .obj fields => .obj (fields.filter fun f => f.1 != key)
  | other => other

def quote : Char := Char.ofNat 34

def backslash : Char := Char.ofNat 92

/-- A character of a string in JSON text, as `json.dumps` writes it without `ensure_ascii`. -/
def escapeChar (char : Char) : List Char :=
  match char.toNat with
  | 8 => [backslash, 'b']
  | 9 => [backslash, 't']
  | 10 => [backslash, 'n']
  | 12 => [backslash, 'f']
  | 13 => [backslash, 'r']
  | 34 => [backslash, quote]
  | 92 => [backslash, backslash]
  | code =>
    if code < 32 then
      [backslash, 'u', '0', '0', Nat.digitChar (code / 16), Nat.digitChar (code % 16)]
    else [char]

def dumpsStr (s : String) : String :=
  String.ofList (quote :: s.toList.flatMap escapeChar ++ [quote])

mutual

/-- `json.dumps` with the separators `,` and `:`; `repr` writes the floats. -/
def dumps (repr : ℚ → String) : Json → String
  | .null => "null"
  | .bool b => if b then "true" else "false"
  | .int n => toString n
  | .float x => repr x
  | .str s => dumpsStr s
  | .arr items => "[" ++ ",".intercalate (dumpsItems repr items) ++ "]"
  | .obj fields => "\x7b" ++ ",".intercalate (dumpsFields repr fields) ++ "\x7d"

def dumpsItems (repr : ℚ → String) : List Json → List String
  | [] => []
  | item :: rest => dumps repr item :: dumpsItems repr rest

def dumpsFields (repr : ℚ → String) : List (String × Json) → List String
  | [] => []
  | (key, value) :: rest => (dumpsStr key ++ ":" ++ dumps repr value) :: dumpsFields repr rest

end

@[simp] theorem isDict_obj (fields : List (String × Json)) : (obj fields).isDict = true := rfl

@[simp] theorem isText_str (s : String) : (str s).isText = decide (s ≠ "") := rfl

@[simp] theorem field_obj (fields : List (String × Json)) (key : String) :
    (obj fields).field key = (fields.lookup key).getD .null := rfl

@[simp] theorem fieldOr_obj (fields : List (String × Json)) (key : String) (default : Json) :
    (obj fields).fieldOr key default = (fields.lookup key).getD default := rfl

@[simp] theorem get_obj (fields : List (String × Json)) (key : String) :
    (obj fields).get key = .ok ((fields.lookup key).getD .null) := rfl

/-! ## Equality is an equivalence -/

mutual

theorem eq_refl : ∀ x, eq x x = true
  | .null => by simp [eq]
  | .bool _ => by simp [eq, number?]
  | .int _ => by simp [eq, number?]
  | .float _ => by simp [eq, number?]
  | .str _ => by simp [eq]
  | .arr xs => by simp [eq, eqItems_refl xs]
  | .obj xs => by simp [eq, eqFields_refl xs]

theorem eqItems_refl : ∀ xs, eqItems xs xs = true
  | [] => by simp [eqItems]
  | x :: xs => by simp [eqItems, eq_refl x, eqItems_refl xs]

theorem eqFields_refl : ∀ xs, eqFields xs xs = true
  | [] => by simp [eqFields]
  | (k, x) :: xs => by simp [eqFields, eq_refl x, eqFields_refl xs]

end

/-- A number equals exactly the values with its numeric value. -/
theorem eq_number {x : Json} {q : ℚ} (number : x.number? = some q) (y : Json) :
    eq x y = (y.number? == some q) := by
  cases x with
  | bool b => simp only [number?] at number; rw [eq, number]
  | int n => simp only [number?] at number; rw [eq, number]
  | float x => simp only [number?] at number; rw [eq, number]
  | null => cases number
  | str s => cases number
  | arr xs => cases number
  | obj xs => cases number

private theorem eq_congr_number {x y : Json} {q : ℚ} (number : x.number? = some q)
    (same : eq x y = true) (z : Json) : eq x z = eq y z := by
  rw [eq_number number, beq_iff_eq] at same
  rw [eq_number number, eq_number same]

mutual

/-- Equal values are equal to the same values. -/
theorem eq_congr : ∀ (x y : Json), eq x y = true → ∀ z, eq x z = eq y z
  | .bool _, _, same, z => eq_congr_number rfl same z
  | .int _, _, same, z => eq_congr_number rfl same z
  | .float _, _, same, z => eq_congr_number rfl same z
  | .null, y, same, z => by
    cases y <;> simp [eq] at same
    rfl
  | .str s, y, same, z => by
    cases y <;> simp [eq] at same
    rw [same]
  | .arr xs, y, same, z => by
    cases y <;> simp only [eq, Bool.false_eq_true] at same
    cases z <;> simp only [eq]
    exact eqItems_congr xs _ same _
  | .obj xs, y, same, z => by
    cases y <;> simp only [eq, Bool.false_eq_true] at same
    cases z <;> simp only [eq]
    exact eqFields_congr xs _ same _

theorem eqItems_congr : ∀ (xs ys : List Json), eqItems xs ys = true →
    ∀ zs, eqItems xs zs = eqItems ys zs
  | [], ys, same, zs => by
    cases ys <;> simp [eqItems] at same
    rfl
  | x :: xs, ys, same, zs => by
    cases ys <;> simp only [eqItems, Bool.false_eq_true, Bool.and_eq_true] at same
    cases zs <;> simp only [eqItems]
    rw [eq_congr x _ same.1, eqItems_congr xs _ same.2]

theorem eqFields_congr : ∀ (xs ys : List (String × Json)), eqFields xs ys = true →
    ∀ zs, eqFields xs zs = eqFields ys zs
  | [], ys, same, zs => by
    cases ys <;> simp [eqFields] at same
    rfl
  | (k, x) :: xs, ys, same, zs => by
    cases ys <;> simp only [eqFields, Bool.false_eq_true, Bool.and_eq_true, beq_iff_eq] at same
    cases zs <;> simp only [eqFields]
    rw [eq_congr x _ same.1.2, eqFields_congr xs _ same.2, same.1.1]

end

theorem eq_symm {x y : Json} (same : eq x y = true) : eq y x = true := by
  rw [← eq_congr x y same]
  exact eq_refl x

theorem eq_trans {x y z : Json} (first : eq x y = true) (second : eq y z = true) :
    eq x z = true := by
  rw [eq_congr x y first]
  exact second

theorem eq_str {s : String} {y : Json} : eq (.str s) y = true ↔ y = .str s := by
  cases y <;> simp [eq, eq_comm (a := s)]

/-- A field that is there is found with any default. -/
theorem fieldOr_eq_field {value : Json} {key : String} {default : Json}
    (present : value.field key ≠ .null) : value.fieldOr key default = value.field key := by
  unfold field fieldOr at *
  cases found : (value.fields?.getD []).lookup key with
  | none => simp [found] at present
  | some v => rfl

/-- Two lists of fields with the same keys, each once, are equal on the keys of a choice when
the values found under these keys are. -/
theorem eqFields_filter (chosen : String → Bool) (xs ys : List (String × Json))
    (keys : xs.map Prod.fst = ys.map Prod.fst) (once : (xs.map Prod.fst).Nodup)
    (same : ∀ key ∈ xs.map Prod.fst, chosen key = true →
      eq ((xs.lookup key).getD .null) ((ys.lookup key).getD .null) = true) :
    eqFields (xs.filter fun f => chosen f.1) (ys.filter fun f => chosen f.1) = true := by
  induction xs generalizing ys with
  | nil =>
    cases ys with
    | nil => rfl
    | cons y ys => simp at keys
  | cons x xs ih =>
    cases ys with
    | nil => simp at keys
    | cons y ys =>
      obtain ⟨k, v⟩ := x
      obtain ⟨l, w⟩ := y
      simp only [List.map_cons, List.cons.injEq, List.nodup_cons] at keys once
      obtain ⟨rfl, keys⟩ := keys
      have rest := ih ys keys once.2 fun key member pick => by
        have other : (key == k) = false := by
          rw [beq_eq_false_iff_ne]
          rintro rfl
          exact once.1 member
        have whole := same key (List.mem_cons_of_mem _ member) pick
        simpa only [List.lookup_cons, other] using whole
      cases pick : chosen k with
      | false => simpa [pick] using rest
      | true =>
        have head := same k List.mem_cons_self pick
        simp only [List.lookup_cons, beq_self_eq_true, Option.getD_some] at head
        simp [pick, eqFields, head, rest]

end Json

end PyJson
