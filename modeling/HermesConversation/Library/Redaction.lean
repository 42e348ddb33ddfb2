import HermesConversation.Library.Json

/-!
# Redaction

A redactor replaces the values under some keys wherever they stand, at any depth. What a reader
of the rest can tell is exactly the rest: two values come out alike just when they differ in
nothing but secrets that are there in both.
-/

namespace HermesConversation.Library.Redaction

def redacted : String := "**REDACTED**"

/-- What there is nothing to hide in. -/
def blank : Json → Bool
  | .null => true
  | .str text => text = ""
  | _ => false

section Redact

variable (secret : List String)

def redactValue (redact : Json → Json) (key : String) (value : Json) : Json :=
  if blank value then value else if key ∈ secret then .str redacted else redact value

structure Redacts (redact : Json → Json) : Prop where
  null : redact .null = .null
  bool : ∀ value, redact (.bool value) = .bool value
  num : ∀ value, redact (.num value) = .num value
  str : ∀ value, redact (.str value) = .str value
  arr : ∀ items, redact (.arr items) = .arr (items.map redact)
  obj : ∀ fields, redact (.obj fields) =
    .obj (fields.map fun field => (field.1, redactValue secret redact field.1 field.2))

mutual

/-- The same but for secrets: a secret is hidden, and that there is one is not. -/
inductive Alike : Json → Json → Prop where
  | null : Alike .null .null
  | bool (value : Bool) : Alike (.bool value) (.bool value)
  | num (value : Rat) : Alike (.num value) (.num value)
  | str (value : String) : Alike (.str value) (.str value)
  | arr {xs ys : List Json} (items : AlikeItems xs ys) : Alike (.arr xs) (.arr ys)
  | obj {xs ys : List (String × Json)} (fields : AlikeFields xs ys) : Alike (.obj xs) (.obj ys)

inductive AlikeItems : List Json → List Json → Prop where
  | nil : AlikeItems [] []
  | cons {x y : Json} {xs ys : List Json} (head : Alike x y) (tail : AlikeItems xs ys) :
      AlikeItems (x :: xs) (y :: ys)

inductive AlikeFields : List (String × Json) → List (String × Json) → Prop where
  | nil : AlikeFields [] []
  | shown {key : String} {x y : Json} {xs ys : List (String × Json)} (head : Alike x y)
      (tail : AlikeFields xs ys) : AlikeFields ((key, x) :: xs) ((key, y) :: ys)
  | hidden {key : String} {x y : Json} {xs ys : List (String × Json)} (key_mem : key ∈ secret)
      (x_there : blank x = false) (y_there : blank y = false) (tail : AlikeFields xs ys) :
      AlikeFields ((key, x) :: xs) ((key, y) :: ys)

end

end Redact

section Alike

variable {secret : List String} {redact : Json → Json}

theorem redact_of_blank (hr : Redacts secret redact) {x : Json} (h : blank x = true) :
    redact x = x := by
  cases x with
  | null => exact hr.null
  | str text => exact hr.str text
  | bool _ | num _ | arr _ | obj _ => cases h

theorem blank_redact (hr : Redacts secret redact) (x : Json) : blank (redact x) = blank x := by
  cases x with
  | null => rw [hr.null]
  | bool value => rw [hr.bool]
  | num value => rw [hr.num]
  | str value => rw [hr.str]
  | arr items =>
    rw [hr.arr]
    rfl
  | obj fields =>
    rw [hr.obj]
    rfl

theorem redactValue_eq (hr : Redacts secret redact) (key : String) (x : Json) :
    redactValue secret redact key x =
      if key ∈ secret ∧ blank x = false then .str redacted else redact x := by
  rw [redactValue]
  cases hblank : blank x with
  | true => simp [redact_of_blank hr hblank]
  | false => simp

mutual

theorem redact_eq_of_alike (hr : Redacts secret redact) {a b : Json} :
    Alike secret a b → redact a = redact b
  | .null | .bool _ | .num _ | .str _ => rfl
  | .arr items => by rw [hr.arr, hr.arr, map_redact_eq_of_alike hr items]
  | .obj fields => by rw [hr.obj, hr.obj, map_redactValue_eq_of_alike hr fields]

theorem map_redact_eq_of_alike (hr : Redacts secret redact) {xs ys : List Json} :
    AlikeItems secret xs ys → xs.map redact = ys.map redact
  | .nil => rfl
  | .cons head tail => by
    rw [List.map_cons, List.map_cons, redact_eq_of_alike hr head, map_redact_eq_of_alike hr tail]

theorem map_redactValue_eq_of_alike (hr : Redacts secret redact) {xs ys : List (String × Json)} :
    AlikeFields secret xs ys →
      (xs.map fun field => (field.1, redactValue secret redact field.1 field.2)) =
        ys.map fun field => (field.1, redactValue secret redact field.1 field.2)
  | .nil => rfl
  | @AlikeFields.shown _ key x y xs ys head tail => by
    have hvalue := redact_eq_of_alike hr head
    have hblank : blank x = blank y := by rw [← blank_redact hr x, hvalue, blank_redact hr]
    rw [List.map_cons, List.map_cons, redactValue_eq hr, redactValue_eq hr, hvalue, hblank,
      map_redactValue_eq_of_alike hr tail]
  | .hidden key_mem x_there y_there tail => by
    rw [List.map_cons, List.map_cons, redactValue_eq hr, redactValue_eq hr,
      if_pos ⟨key_mem, x_there⟩, if_pos ⟨key_mem, y_there⟩, map_redactValue_eq_of_alike hr tail]

end

mutual

theorem alike_of_redact_eq (hr : Redacts secret redact) :
    ∀ a b : Json, redact a = redact b → Alike secret a b
  | .null, b, h => by
    cases b <;> simp only [hr.null, hr.bool, hr.num, hr.str, hr.arr, hr.obj, reduceCtorEq] at h
    exact .null
  | .bool value, b, h => by
    cases b <;> simp only [hr.null, hr.bool, hr.num, hr.str, hr.arr, hr.obj, reduceCtorEq,
      Json.bool.injEq] at h
    rw [h]
    exact .bool _
  | .num value, b, h => by
    cases b <;> simp only [hr.null, hr.bool, hr.num, hr.str, hr.arr, hr.obj, reduceCtorEq,
      Json.num.injEq] at h
    rw [h]
    exact .num _
  | .str value, b, h => by
    cases b <;> simp only [hr.null, hr.bool, hr.num, hr.str, hr.arr, hr.obj, reduceCtorEq,
      Json.str.injEq] at h
    rw [h]
    exact .str _
  | .arr xs, b, h => by
    cases b <;> simp only [hr.null, hr.bool, hr.num, hr.str, hr.arr, hr.obj, reduceCtorEq,
      Json.arr.injEq] at h
    exact .arr (alikeItems_of_redact_eq hr xs _ h)
  | .obj xs, b, h => by
    cases b <;> simp only [hr.null, hr.bool, hr.num, hr.str, hr.arr, hr.obj, reduceCtorEq,
      Json.obj.injEq] at h
    exact .obj (alikeFields_of_redact_eq hr xs _ h)

theorem alikeItems_of_redact_eq (hr : Redacts secret redact) :
    ∀ xs ys : List Json, xs.map redact = ys.map redact → AlikeItems secret xs ys
  | [], [], _ => .nil
  | [], y :: ys, h => by simp at h
  | x :: xs, [], h => by simp at h
  | x :: xs, y :: ys, h => by
    rw [List.map_cons, List.map_cons, List.cons.injEq] at h
    exact .cons (alike_of_redact_eq hr x y h.1) (alikeItems_of_redact_eq hr xs ys h.2)

theorem alikeFields_of_redact_eq (hr : Redacts secret redact) :
    ∀ xs ys : List (String × Json),
      (xs.map fun field => (field.1, redactValue secret redact field.1 field.2)) =
        (ys.map fun field => (field.1, redactValue secret redact field.1 field.2)) →
      AlikeFields secret xs ys
  | [], [], _ => .nil
  | [], y :: ys, h => by simp at h
  | x :: xs, [], h => by simp at h
  | (key, x) :: xs, (key', y) :: ys, h => by
    rw [List.map_cons, List.map_cons, List.cons.injEq, Prod.mk.injEq] at h
    obtain ⟨⟨rfl, hvalue⟩, hrest⟩ := h
    have htail := alikeFields_of_redact_eq hr xs ys hrest
    have hmark : blank (.str redacted) = false := by decide
    rw [redactValue_eq hr, redactValue_eq hr] at hvalue
    split_ifs at hvalue with hx hy hy
    · exact .hidden hx.1 hx.2 hy.2 htail
    -- Of a secret and a blank, one comes out blank and the other does not.
    · have hblank : blank y = false := by rw [← blank_redact hr y, ← hvalue, hmark]
      exact absurd ⟨hx.1, hblank⟩ hy
    · have hblank : blank x = false := by rw [← blank_redact hr x, hvalue, hmark]
      exact absurd ⟨hy.1, hblank⟩ hx
    · exact .shown (alike_of_redact_eq hr x y hvalue) htail

end

theorem redact_eq_iff (hr : Redacts secret redact) {a b : Json} :
    redact a = redact b ↔ Alike secret a b :=
  ⟨alike_of_redact_eq hr a b, redact_eq_of_alike hr⟩

end Alike

end HermesConversation.Library.Redaction
