import Placement.Expression.HostCall
/-! # Answers as literals

An answer of the host takes the place of its call as a literal tree, so **the literal of a
value has to have that value** (`Expression.eval_ofValue`), whatever is nested in it.

An answer is looked up by its call, and calls are compared with the equality of values that
an undefined double spoils: **a value equals itself exactly if no undefined double is in it**,
and a value that anything equals holds none.
-/
namespace Placement

/-! ## Undefined doubles -/

theorem float_beq_self {x : Float} (h : x.isNaN = false) : (x == x) = true := by
  show Float.beq x x = true
  have hx : x.toModel.unpack.isNaN = false := h
  show x.toModel.unpack.beq x.toModel.unpack = true
  cases hunpacked : x.toModel.unpack with
  | notANumber =>
      rw [hunpacked] at hx
      cases hx
  | infinity s => cases s <;> rfl
  | zero s => rfl
  | finite s m e hm =>
      have hsame : (compare e e).then (compare m m) = .eq := by
        have hexponent : compare e e = .eq := Std.ReflCmp.compare_self
        have hmantissa : compare m m = .eq := Std.ReflCmp.compare_self
        rw [hexponent, hmantissa]
        rfl
      cases s with
      | positive => exact congrArg (fun order => some order == some Ordering.eq) hsame
      | negative => exact congrArg (fun order => some order.swap == some Ordering.eq) hsame

theorem isNaN_of_beq {x y : Float} (h : (x == y) = true) : y.isNaN = false := by
  have hxy : x.toModel.unpack.beq y.toModel.unpack = true := h
  show y.toModel.unpack.isNaN = false
  cases hy : y.toModel.unpack with
  | notANumber =>
      rw [hy] at hxy
      cases hx : x.toModel.unpack <;> rw [hx] at hxy <;> cases hxy
  | infinity s => rfl
  | zero s => rfl
  | finite s m e hm => rfl

namespace Value

mutual

/-- Whether an undefined double stands somewhere in a value. -/
def isUndefined : Value → Bool
  | .float x => x.isNaN
  | .list items => anyUndefined items
  | .map entries => anyUndefinedEntry entries
  | _ => false

def anyUndefined : List Value → Bool
  | [] => false
  | v :: rest => isUndefined v || anyUndefined rest

def anyUndefinedEntry : List (String × Value) → Bool
  | [] => false
  | (_, v) :: rest => isUndefined v || anyUndefinedEntry rest

end

mutual

/-- What a value equals holds no undefined double. -/
theorem isUndefined_of_same : ∀ a b : Value, a.same b = true → b.isUndefined = false
  | .null, .null, _ => rfl
  | .bool _, .bool _, _ => rfl
  | .int _, .int _, _ => rfl
  | .float _, .float _, h => isNaN_of_beq h
  | .string _, .string _, _ => rfl
  | .list items, .list others, h => anyUndefined_of_sameItems items others h
  | .map entries, .map others, h => anyUndefinedEntry_of_sameEntries entries others h

theorem anyUndefined_of_sameItems : ∀ items others : List Value,
    sameItems items others = true → anyUndefined others = false
  | [], [], _ => rfl
  | a :: items, b :: others, h => by
      rw [sameItems, Bool.and_eq_true] at h
      rw [anyUndefined, isUndefined_of_same a b h.1, anyUndefined_of_sameItems items others h.2]
      rfl

theorem anyUndefinedEntry_of_sameEntries : ∀ entries others : List (String × Value),
    sameEntries entries others = true → anyUndefinedEntry others = false
  | [], [], _ => rfl
  | (_, a) :: entries, (_, b) :: others, h => by
      rw [sameEntries, Bool.and_eq_true, Bool.and_eq_true] at h
      rw [anyUndefinedEntry, isUndefined_of_same a b h.1.2,
        anyUndefinedEntry_of_sameEntries entries others h.2]
      rfl

end

mutual

/-- A value without undefined doubles equals itself. -/
theorem same_self : ∀ v : Value, v.isUndefined = false → v.same v = true
  | .null, _ => rfl
  | .bool b, _ => beq_self_eq_true b
  | .int n, _ => beq_self_eq_true n
  | .float _, h => float_beq_self h
  | .string s, _ => beq_self_eq_true s
  | .list items, h => sameItems_self items h
  | .map entries, h => sameEntries_self entries h

theorem sameItems_self : ∀ items : List Value,
    anyUndefined items = false → sameItems items items = true
  | [], _ => rfl
  | v :: rest, h => by
      rw [anyUndefined, Bool.or_eq_false_iff] at h
      rw [sameItems, same_self v h.1, sameItems_self rest h.2]
      rfl

theorem sameEntries_self : ∀ entries : List (String × Value),
    anyUndefinedEntry entries = false → sameEntries entries entries = true
  | [], _ => rfl
  | (key, v) :: rest, h => by
      rw [anyUndefinedEntry, Bool.or_eq_false_iff] at h
      rw [sameEntries, beq_self_eq_true, same_self v h.1, sameEntries_self rest h.2]
      rfl

end

end Value

namespace HostCall

/-- Whether an argument holds an undefined double. -/
def isUndefined (call : HostCall) : Bool := Value.anyUndefined call.args

/-- **A call equals itself exactly if its arguments hold no undefined double.** -/
theorem same_self_iff {call : HostCall} : call.same call = true ↔ call.isUndefined = false := by
  rw [same, Bool.and_eq_true]
  constructor
  · rintro ⟨-, hargs⟩
    exact Value.anyUndefined_of_sameItems _ _ hargs
  · exact fun h => ⟨beq_self_eq_true _, Value.sameItems_self _ h⟩

/-- A call that another one equals equals itself. -/
theorem same_self_of_same {known call : HostCall} (h : known.same call = true) :
    call.same call = true := by
  rw [same, Bool.and_eq_true] at h
  exact same_self_iff.mpr (Value.anyUndefined_of_sameItems _ _ h.2)

end HostCall

/-! ## Literals -/

namespace Expression
open Value

theorem ofValue_ne_ident {name : String} (v : Value) : ofValue v ≠ .ident name := by
  cases v <;> nofun

mutual

/-- **The literal of a value has that value**, in any context. -/
theorem eval_ofValue (ctx : Context) : ∀ v : Value, v.Canonical → (ofValue v).eval ctx = .ok v
  | .null, _ | .bool _, _ | .int _, _ | .float _, _ | .string _, _ => rfl
  | .list items, h => by
      rw [ofValue, eval, evalList_ofItems ctx items h]
      rfl
  | .map entries, h => by
      obtain ⟨hascending, hentries⟩ := h
      rw [ofValue, eval, evalEntries_ofEntries ctx entries hentries []]
      exact congrArg (fun found => Except.ok (Value.map found)) (Entries.ofList_eq_self hascending)

theorem evalList_ofItems (ctx : Context) : ∀ items : List Value, CanonicalItems items →
    evalList ctx (ofItems items) = .ok items
  | [], _ => rfl
  | v :: rest, ⟨hv, hrest⟩ => by
      rw [ofItems, evalList, eval_ofValue ctx v hv, evalList_ofItems ctx rest hrest]
      rfl

theorem evalEntries_ofEntries (ctx : Context) : ∀ entries : List (String × Value),
    CanonicalEntries entries → ∀ stored, evalEntries ctx (ofEntries entries) stored =
      .ok (entries.foldl (fun stored entry => Entries.put entry.1 entry.2 stored) stored)
  | [], _, _ => rfl
  | (key, v) :: rest, ⟨hv, hrest⟩, stored => by
      have hkey : eval ctx (.literal (.string key)) = .ok (.string key) := rfl
      rw [ofEntries, evalEntries, hkey, eval_ofValue ctx v hv]
      exact evalEntries_ofEntries ctx rest hrest (Entries.put key v stored)

end

end Expression
end Placement
