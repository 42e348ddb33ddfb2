import Mathlib.Data.Finmap
import Mathlib.Tactic.Common

/-!
# JSON values and dictionaries

A value as `json.loads` returns it, and a dictionary with text keys. Numbers are rational;
the order of a dictionary's keys is forgotten, as by `==`.
-/

namespace HermesConversation.Library

inductive Json where
  | null
  | bool (value : Bool)
  | num (value : Rat)
  | str (value : String)
  | arr (items : List Json)
  | obj (fields : List (String × Json))

namespace Json

mutual

def decEq : (a b : Json) → Decidable (a = b)
  | .null, .null => .isTrue rfl
  | .bool a, .bool b => decidable_of_iff (a = b) (by simp)
  | .num a, .num b => decidable_of_iff (a = b) (by simp)
  | .str a, .str b => decidable_of_iff (a = b) (by simp)
  | .arr a, .arr b =>
    match decEqItems a b with
    | .isTrue h => .isTrue (by rw [h])
    | .isFalse h => .isFalse (by simp [h])
  | .obj a, .obj b =>
    match decEqFields a b with
    | .isTrue h => .isTrue (by rw [h])
    | .isFalse h => .isFalse (by simp [h])
  | .null, .bool _ | .null, .num _ | .null, .str _ | .null, .arr _ | .null, .obj _
  | .bool _, .null | .bool _, .num _ | .bool _, .str _ | .bool _, .arr _ | .bool _, .obj _
  | .num _, .null | .num _, .bool _ | .num _, .str _ | .num _, .arr _ | .num _, .obj _
  | .str _, .null | .str _, .bool _ | .str _, .num _ | .str _, .arr _ | .str _, .obj _
  | .arr _, .null | .arr _, .bool _ | .arr _, .num _ | .arr _, .str _ | .arr _, .obj _
  | .obj _, .null | .obj _, .bool _ | .obj _, .num _ | .obj _, .str _ | .obj _, .arr _ =>
    .isFalse (by simp)

def decEqItems : (a b : List Json) → Decidable (a = b)
  | [], [] => .isTrue rfl
  | [], _ :: _ | _ :: _, [] => .isFalse (by simp)
  | x :: xs, y :: ys =>
    match decEq x y, decEqItems xs ys with
    | .isTrue hx, .isTrue hxs => .isTrue (by rw [hx, hxs])
    | .isFalse hx, _ => .isFalse (by simp [hx])
    | _, .isFalse hxs => .isFalse (by simp [hxs])

def decEqFields : (a b : List (String × Json)) → Decidable (a = b)
  | [], [] => .isTrue rfl
  | [], _ :: _ | _ :: _, [] => .isFalse (by simp)
  | (k, x) :: xs, (l, y) :: ys =>
    match (inferInstance : Decidable (k = l)), decEq x y, decEqFields xs ys with
    | .isTrue hk, .isTrue hx, .isTrue hxs => .isTrue (by rw [hk, hx, hxs])
    | .isFalse hk, _, _ => .isFalse (by simp [hk])
    | _, .isFalse hx, _ => .isFalse (by simp [hx])
    | _, _, .isFalse hxs => .isFalse (by simp [hxs])

end

instance : DecidableEq Json := decEq

end Json

abbrev Dict := Finmap fun _ : String => Json

end HermesConversation.Library
