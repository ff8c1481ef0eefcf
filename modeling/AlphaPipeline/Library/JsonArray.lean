import Mathlib.Tactic

/-!
# Arrays of strings as JSON text

A layout says how an array of strings is written: which characters are escaped, where blanks
stand, and whether a comma follows the last string. JSON has its own blanks and no such comma.
Whatever counts as a blank, a text has one layout at most.
-/
namespace JsonArray

/-- The double quote. -/
def quote : Char := Char.ofNat 34

def backslash : Char := Char.ofNat 92

/-- A character of a string, as it is spelled: as itself, by a short escape, or by its code. -/
inductive Spelled where
  | plain (c : Char)
  | short (c : Char)
  | unicode (a b c d : Char)
  deriving DecidableEq, Repr

def shortEscapes : List (Char × Char) :=
  [(quote, quote), (backslash, backslash), ('/', '/'), ('b', Char.ofNat 8), ('f', Char.ofNat 12),
    ('n', '\n'), ('r', '\r'), ('t', '\t')]

def hexValue (c : Char) : Option Nat :=
  if '0' ≤ c ∧ c ≤ '9' then some (c.toNat - 48)
  else if 'a' ≤ c ∧ c ≤ 'f' then some (c.toNat - 87)
  else if 'A' ≤ c ∧ c ≤ 'F' then some (c.toNat - 55)
  else none

/-- The character that is meant, if the spelling is one of JSON. -/
def Spelled.value : Spelled → Option Char
  | .plain c => if c ≠ quote ∧ c ≠ backslash ∧ 32 ≤ c.toNat then some c else none
  | .short c => shortEscapes.lookup c
  | .unicode a b c d => do
    let code := (← hexValue a) * 4096 + (← hexValue b) * 256 + (← hexValue c) * 16 + (← hexValue d)
    some (Char.ofNat code)

def Spelled.text : Spelled → List Char
  | .plain c => [c]
  | .short c => [backslash, c]
  | .unicode a b c d => [backslash, 'u', a, b, c, d]

def Spelled.isPlain : Spelled → Bool
  | .plain _ => true
  | _ => false

/-- A string in quotes. -/
def literalText (literal : List Spelled) : List Char :=
  quote :: (literal.flatMap Spelled.text ++ [quote])

/-- What follows the opening bracket and the blanks after it: the closing bracket, a last string,
or a string and a comma; blanks may follow a string and a comma. -/
inductive Body where
  | close
  | last (literal : List Spelled) (after : List Char)
  | comma (literal : List Spelled) (after gap : List Char) (rest : Body)
  deriving DecidableEq, Repr

namespace Body

def text : Body → List Char
  | close => [']']
  | last literal after => literalText literal ++ (after ++ [']'])
  | comma literal after gap rest => literalText literal ++ (after ++ ',' :: (gap ++ rest.text))

def strings : Body → List (List Spelled)
  | close => []
  | last literal _ => [literal]
  | comma literal _ _ rest => literal :: rest.strings

def blanks : Body → List Char
  | close => []
  | last _ after => after
  | comma _ after gap rest => after ++ gap ++ rest.blanks

/-- The spellings are ones of JSON. -/
def Valid (body : Body) : Prop := ∀ s ∈ body.strings, ∀ c ∈ s, c.value.isSome = true

/-- A comma stands before the closing bracket. -/
def trailingComma : Body → Bool
  | close => false
  | last _ _ => false
  | comma _ _ _ close => true
  | comma _ _ _ rest => rest.trailingComma

end Body

/-- A whole text: an array with blanks around it. -/
structure Layout where
  lead : List Char
  gap : List Char
  body : Body
  tail : List Char
  deriving DecidableEq, Repr

namespace Layout

def text (layout : Layout) : List Char :=
  layout.lead ++ '[' :: (layout.gap ++ (layout.body.text ++ layout.tail))

def blanks (layout : Layout) : List Char :=
  layout.lead ++ layout.gap ++ layout.body.blanks ++ layout.tail

/-- Every string has this spelling of a value. -/
def Spells (layout : Layout) (values : List (List Char)) : Prop :=
  layout.body.strings.map (List.map Spelled.value) = values.map (List.map some)

def Spaced (blank : Char → Bool) (layout : Layout) : Prop := ∀ c ∈ layout.blanks, blank c = true

def isPlain (layout : Layout) : Bool := layout.body.strings.all fun s => s.all Spelled.isPlain

end Layout

/-- The blanks of JSON. -/
def isBlank (c : Char) : Bool := c == ' ' || c == '\t' || c == '\n' || c == '\r'

/-- The text is a JSON array. -/
def Layout.IsJson (layout : Layout) : Prop :=
  layout.Spaced isBlank ∧ layout.body.trailingComma = false

/-! ### One layout at most -/

/-- Spellings do not run into each other. -/
theorem spelled_split {s t : Spelled} {x y : List Char} (left : s.value.isSome = true)
    (right : t.value.isSome = true) (same : s.text ++ x = t.text ++ y) : s = t ∧ x = y := by
  have plain : ∀ c, (Spelled.plain c).value.isSome = true → c ≠ backslash := by
    rintro c valid rfl
    simp [Spelled.value] at valid
  have short : ∀ c, (Spelled.short c).value.isSome = true → c ≠ 'u' := by
    rintro c valid rfl
    exact absurd valid (by decide)
  -- the first character tells a plain one from an escape, the second tells the escapes apart
  cases s <;> cases t <;>
    simp only [Spelled.text, List.cons_append, List.nil_append, List.cons.injEq] at same
  case plain.plain => exact ⟨by rw [same.1], same.2⟩
  case plain.short => exact absurd same.1 (plain _ left)
  case plain.unicode => exact absurd same.1 (plain _ left)
  case short.plain => exact absurd same.1.symm (plain _ right)
  case short.short => exact ⟨by rw [same.2.1], same.2.2⟩
  case short.unicode => exact absurd same.2.1 (short _ left)
  case unicode.plain => exact absurd same.1.symm (plain _ right)
  case unicode.short => exact absurd same.2.1.symm (short _ right)
  case unicode.unicode =>
    obtain ⟨_, _, rfl, rfl, rfl, rfl, rest⟩ := same
    exact ⟨rfl, rest⟩

/-- No spelling begins with the quote that ends the string. -/
theorem spelled_head {s : Spelled} (valid : s.value.isSome = true) :
    ∃ c rest, s.text = c :: rest ∧ c ≠ quote := by
  cases s with
  | plain c =>
    refine ⟨c, [], rfl, ?_⟩
    rintro rfl
    simp [Spelled.value] at valid
  | short c => exact ⟨backslash, [c], rfl, by decide⟩
  | unicode a b c d => exact ⟨backslash, ['u', a, b, c, d], rfl, by decide⟩

theorem literal_split {s t : List Spelled} {x y : List Char}
    (left : ∀ c ∈ s, c.value.isSome = true) (right : ∀ c ∈ t, c.value.isSome = true)
    (same : literalText s ++ x = literalText t ++ y) : s = t ∧ x = y := by
  simp only [literalText, List.cons_append, List.append_assoc, List.nil_append, List.cons.injEq,
    true_and] at same
  -- character by character; the closing quote cannot be taken for a spelling
  induction s generalizing t with
  | nil =>
    cases t with
    | nil => exact ⟨rfl, by simpa using same⟩
    | cons d t =>
      obtain ⟨c, rest, text, other⟩ := spelled_head (right d List.mem_cons_self)
      simp only [List.flatMap_nil, List.nil_append, List.flatMap_cons, text, List.cons_append,
        List.cons.injEq] at same
      exact absurd same.1.symm other
  | cons c s ih =>
    cases t with
    | nil =>
      obtain ⟨d, rest, text, other⟩ := spelled_head (left c List.mem_cons_self)
      simp only [List.flatMap_nil, List.nil_append, List.flatMap_cons, text, List.cons_append,
        List.cons.injEq] at same
      exact absurd same.1 other
    | cons d t =>
      simp only [List.flatMap_cons, List.append_assoc] at same
      obtain ⟨rfl, rest⟩ :=
        spelled_split (left c List.mem_cons_self) (right d List.mem_cons_self) same
      obtain ⟨rfl, rfl⟩ := ih (fun e h => left e (List.mem_cons_of_mem _ h))
        (fun e h => right e (List.mem_cons_of_mem _ h)) rest
      exact ⟨rfl, rfl⟩

section Unique

variable {blank : Char → Bool}

/-- Blanks end where something else begins. -/
theorem blank_split {a b x y : List Char} {c d : Char} (left : ∀ z ∈ a, blank z = true)
    (right : ∀ z ∈ b, blank z = true) (visible : blank c = false) (shown : blank d = false)
    (same : a ++ c :: x = b ++ d :: y) : a = b ∧ c = d ∧ x = y := by
  induction a generalizing b with
  | nil =>
    cases b with
    | nil => exact ⟨rfl, by simpa using same⟩
    | cons e b =>
      obtain rfl : c = e := (List.cons.inj same).1
      exact absurd (right c List.mem_cons_self) (by simp [visible])
  | cons e a ih =>
    cases b with
    | nil =>
      obtain rfl : e = d := (List.cons.inj same).1
      exact absurd (left e List.mem_cons_self) (by simp [shown])
    | cons f b =>
      obtain ⟨rfl, rest⟩ := List.cons.inj same
      obtain ⟨rfl, equal⟩ := ih (fun z h => left z (List.mem_cons_of_mem _ h))
        (fun z h => right z (List.mem_cons_of_mem _ h)) rest
      exact ⟨rfl, equal⟩

variable (visible : ∀ c ∈ ['[', ']', ',', quote], blank c = false)
include visible

theorem body_head (body : Body) : ∃ c rest, body.text = c :: rest ∧ blank c = false := by
  cases body with
  | close => exact ⟨']', [], rfl, visible _ (by simp)⟩
  | last literal after => exact ⟨quote, _, rfl, visible _ (by simp)⟩
  | comma literal after gap rest => exact ⟨quote, _, rfl, visible _ (by simp)⟩

/-- Blanks before a body end where it begins. -/
theorem gap_split {gap gap' : List Char} {a b : Body} {x y : List Char}
    (left : ∀ c ∈ gap, blank c = true) (right : ∀ c ∈ gap', blank c = true)
    (same : gap ++ (a.text ++ x) = gap' ++ (b.text ++ y)) :
    gap = gap' ∧ a.text ++ x = b.text ++ y := by
  obtain ⟨c, first, text, shown⟩ := body_head visible a
  obtain ⟨d, first', text', shown'⟩ := body_head visible b
  simp only [text, text', List.cons_append] at same ⊢
  obtain ⟨rfl, rfl, rest⟩ := blank_split left right shown shown' same
  exact ⟨rfl, by rw [rest]⟩

theorem body_split {a b : Body} {x y : List Char} (left : ∀ c ∈ a.blanks, blank c = true)
    (right : ∀ c ∈ b.blanks, blank c = true) (valid : a.Valid) (fine : b.Valid)
    (same : a.text ++ x = b.text ++ y) : a = b ∧ x = y := by
  have bracket : blank ']' = false := visible _ (by simp)
  have comma : blank ',' = false := visible _ (by simp)
  -- string by string; what stands behind the blanks after it tells the constructors apart
  induction a generalizing b with
  | close =>
    cases b with
    | close => exact ⟨rfl, by simpa [Body.text] using same⟩
    | _ => exact absurd (List.cons.inj same).1 (by decide)
  | last s after =>
    cases b with
    | close => exact absurd (List.cons.inj same).1 (by decide)
    | last t after' =>
      simp only [Body.text, List.append_assoc, List.singleton_append] at same
      obtain ⟨rfl, rest⟩ :=
        literal_split (valid s List.mem_cons_self) (fine t List.mem_cons_self) same
      obtain ⟨rfl, _, rfl⟩ := blank_split left right bracket bracket rest
      exact ⟨rfl, rfl⟩
    | comma t after' gap rest =>
      simp only [Body.text, List.append_assoc, List.cons_append] at same
      obtain ⟨_, ends⟩ :=
        literal_split (valid s List.mem_cons_self) (fine t List.mem_cons_self) same
      have spaces : ∀ c ∈ after', blank c = true := fun c h => right c (by simp [Body.blanks, h])
      exact absurd (blank_split left spaces bracket comma ends).2.1 (by decide)
  | comma s after gap rest ih =>
    have spaces : ∀ c ∈ after, blank c = true := fun c h => left c (by simp [Body.blanks, h])
    cases b with
    | close => exact absurd (List.cons.inj same).1 (by decide)
    | last t after' =>
      simp only [Body.text, List.append_assoc, List.cons_append] at same
      obtain ⟨_, ends⟩ :=
        literal_split (valid s List.mem_cons_self) (fine t List.mem_cons_self) same
      exact absurd (blank_split spaces right comma bracket ends).2.1 (by decide)
    | comma t after' gap' rest' =>
      simp only [Body.text, List.append_assoc, List.cons_append] at same
      obtain ⟨rfl, ends⟩ :=
        literal_split (valid s List.mem_cons_self) (fine t List.mem_cons_self) same
      have spaces' : ∀ c ∈ after', blank c = true := fun c h => right c (by simp [Body.blanks, h])
      obtain ⟨rfl, _, behind⟩ := blank_split spaces spaces' comma comma ends
      obtain ⟨rfl, others⟩ := gap_split visible (fun c h => left c (by simp [Body.blanks, h]))
        (fun c h => right c (by simp [Body.blanks, h])) behind
      obtain ⟨rfl, rfl⟩ := ih (fun c h => left c (by simp [Body.blanks, h]))
        (fun c h => right c (by simp [Body.blanks, h]))
        (fun s h => valid s (List.mem_cons_of_mem _ h))
        (fun s h => fine s (List.mem_cons_of_mem _ h)) others
      exact ⟨rfl, rfl⟩

/-- A text has one layout at most. -/
theorem layout_unique {a b : Layout} (left : a.Spaced blank) (right : b.Spaced blank)
    (valid : a.body.Valid) (fine : b.body.Valid) (same : a.text = b.text) : a = b := by
  obtain ⟨lead, gap, body, tail⟩ := a
  obtain ⟨lead', gap', body', tail'⟩ := b
  simp only [Layout.Spaced, Layout.blanks, List.mem_append] at left right
  have bracket : blank '[' = false := visible _ (by simp)
  obtain ⟨rfl, _, inside⟩ := blank_split (fun c h => left c (by simp [h]))
    (fun c h => right c (by simp [h])) bracket bracket same
  obtain ⟨rfl, arrays⟩ := gap_split visible (fun c h => left c (by simp [h]))
    (fun c h => right c (by simp [h])) inside
  obtain ⟨rfl, rfl⟩ := body_split visible (fun c h => left c (by simp [h]))
    (fun c h => right c (by simp [h])) valid fine arrays
  rfl

end Unique

/-- The layout of a text that spells something is valid. -/
theorem Layout.Spells.valid {layout : Layout} {values : List (List Char)}
    (spells : layout.Spells values) : layout.body.Valid := by
  intro s present c member
  have mapped : s.map Spelled.value ∈ layout.body.strings.map (List.map Spelled.value) :=
    List.mem_map_of_mem present
  rw [spells] at mapped
  obtain ⟨value, _, equal⟩ := List.mem_map.mp mapped
  have known : c.value ∈ value.map some := by
    rw [equal]
    exact List.mem_map_of_mem member
  obtain ⟨d, _, found⟩ := List.mem_map.mp known
  rw [← found]
  rfl

end JsonArray
