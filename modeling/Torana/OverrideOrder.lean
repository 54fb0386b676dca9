import Torana.Boundary
import Torana.Completeness
import Torana.Overrides

/-!
The order in which a map of overrides iterates. Its keys are told apart by their
case and the names of fields are not, so that two keys of an accepted map can mean
one field: what is left under it is then decided by the order, which is a random
one.
-/
namespace Torana
open Http Proxy
open Completeness (Applied)
open Overrides (overriddenValues getAll_override_self getAll_override_ne)

namespace OverrideOrder

/-- The map has the same effect in every order of its entries. -/
def OrderFree (overrides : StringMap) : Prop :=
  ∀ other : StringMap, other.entries.Perm overrides.entries → ∀ headers : HeaderMap,
    applyHeaderOverrides headers other = applyHeaderOverrides headers overrides

/-- Keys that differ in case alone have the same value. -/
def Agreeing (overrides : StringMap) : Prop :=
  ∀ a ∈ overrides.entries, ∀ b ∈ overrides.entries,
    Text.toAsciiLowercase a.1.toList = Text.toAsciiLowercase b.1.toList → a.2 = b.2

instance (overrides : StringMap) : Decidable (Agreeing overrides) :=
  inferInstanceAs (Decidable (∀ a ∈ overrides.entries, ∀ b ∈ overrides.entries, _ → _))

/-! ## One entry -/

/-- An applied override leaves no value, or the one that its text makes. -/
theorem applied_cases {entry : String × String} (applied : Applied entry) :
    (entry.2 = "" ∧ ∀ before, overriddenValues entry.2 before = []) ∨
      ∃ value, HeaderValue.fromStr entry.2 = some value ∧ ∀ before, overriddenValues entry.2 before = [value] := by
  by_cases empty : entry.2 = ""
  · refine .inl ⟨empty, ?_⟩
    intro before
    rw [overriddenValues, if_pos empty]
  · obtain ⟨name, -, ⟨cleared, -⟩ | ⟨value, made, -⟩⟩ := applied
    · exact absurd cleared empty
    · refine .inr ⟨value, made, ?_⟩
      intro before
      rw [overriddenValues, if_neg empty, made]

/-- What an applied override leaves under its name tells its value. -/
theorem overriddenValues_inj {a b : String × String} (left : Applied a) (right : Applied b)
    {before before' : List HeaderValue} (same : overriddenValues a.2 before = overriddenValues b.2 before') :
    a.2 = b.2 := by
  rcases applied_cases left with ⟨empty, cleared⟩ | ⟨v, made, one⟩
  · rcases applied_cases right with ⟨empty', none'⟩ | ⟨v', made', one'⟩
    · rw [empty, empty']
    · rw [cleared, one'] at same
      cases same
  · rcases applied_cases right with ⟨empty', none'⟩ | ⟨v', made', one'⟩
    · rw [one, none'] at same
      cases same
    · rw [one, one'] at same
      cases same
      exact Boundary.fromStr_inj made made'

theorem headers_ext {a b : HeaderMap} (same : ∀ name, a.getAll name = b.getAll name) : a = b := by
  obtain ⟨left⟩ := a
  obtain ⟨right⟩ := b
  exact congrArg Multimap.mk (funext same)

/-- Overrides of different fields commute, and so do two that leave the same. -/
theorem override_comm {a b : String × String} (left : Applied a) (right : Applied b)
    (agree : Text.toAsciiLowercase a.1.toList = Text.toAsciiLowercase b.1.toList → a.2 = b.2) (headers : HeaderMap) :
    applyHeaderOverride (applyHeaderOverride headers a) b = applyHeaderOverride (applyHeaderOverride headers b) a := by
  obtain ⟨first, namedFirst, -⟩ := id left
  obtain ⟨second, namedSecond, -⟩ := id right
  refine headers_ext fun name => ?_
  by_cases one : HeaderName.fromBytes a.1 = some name
  · by_cases two : HeaderName.fromBytes b.1 = some name
    · have same := agree (fromBytes_inj one two)
      rw [getAll_override_self _ two, getAll_override_self _ one, getAll_override_self _ one,
        getAll_override_self _ two, same]
    · rw [getAll_override_ne _ two, getAll_override_self _ one, getAll_override_self _ one, getAll_override_ne _ two]
  · by_cases two : HeaderName.fromBytes b.1 = some name
    · rw [getAll_override_ne _ one, getAll_override_self _ two, getAll_override_self _ two, getAll_override_ne _ one]
    · rw [getAll_override_ne _ one, getAll_override_ne _ two, getAll_override_ne _ two, getAll_override_ne _ one]

/-! ## All entries -/

theorem agreeing_orderFree {overrides : StringMap} (applied : ∀ entry ∈ overrides.entries, Applied entry)
    (agreeing : Agreeing overrides) : OrderFree overrides := by
  intro other same headers
  refine same.foldl_eq' ?_ headers
  intro a memberA b memberB given
  have listedA := same.mem_iff.mp memberA
  have listedB := same.mem_iff.mp memberB
  exact override_comm (applied a listedA) (applied b listedB) (agreeing a listedA b listedB) given

/-- An order in which one entry is applied last. -/
theorem last_order (overrides : StringMap) {entry : String × String} (member : entry ∈ overrides.entries) :
    ∃ (other : StringMap) (before : List (String × String)),
      other.entries = before ++ [entry] ∧ other.entries.Perm overrides.entries := by
  have moved : (overrides.entries.erase entry ++ [entry]).Perm overrides.entries :=
    (List.perm_append_singleton _ _).trans (List.perm_cons_erase member).symm
  exact ⟨⟨_, (moved.map Prod.fst).nodup_iff.mpr overrides.distinct⟩, _, rfl, moved⟩

theorem applyHeaderOverrides_last {overrides : StringMap} {before : List (String × String)} {entry : String × String}
    (last : overrides.entries = before ++ [entry]) {name : HeaderName}
    (named : HeaderName.fromBytes entry.1 = some name) (headers : HeaderMap) :
    ∃ values, (applyHeaderOverrides headers overrides).getAll name = overriddenValues entry.2 values := by
  rw [applyHeaderOverrides, last, List.foldl_append, List.foldl_cons, List.foldl_nil]
  exact ⟨_, getAll_override_self _ named⟩

theorem orderFree_agreeing {overrides : StringMap} (applied : ∀ entry ∈ overrides.entries, Applied entry)
    (free : OrderFree overrides) : Agreeing overrides := by
  intro a memberA b memberB alike
  obtain ⟨name, named, -⟩ := applied a memberA
  obtain ⟨name', named', -⟩ := applied b memberB
  obtain rfl : name' = name := by
    rw [HeaderName.mk.injEq, fromBytes_text named, fromBytes_text named', alike]
  obtain ⟨first, beforeA, lastA, permA⟩ := last_order overrides memberA
  obtain ⟨second, beforeB, lastB, permB⟩ := last_order overrides memberB
  obtain ⟨values, left⟩ := applyHeaderOverrides_last lastA named Multimap.empty
  obtain ⟨values', right⟩ := applyHeaderOverrides_last lastB named' Multimap.empty
  rw [free first permA] at left
  rw [free second permB] at right
  exact overriddenValues_inj (applied a memberA) (applied b memberB) (left.symm.trans right)

/-- The overrides of an accepted config do the same in every order exactly when keys that
    mean one field have one value. -/
theorem order_free_iff {build : Config.Build} {parseUri : UriParser} {config : Config} {route : Config.RouteConfig}
    {overrides : StringMap} (accepted : Config.validate build parseUri config = .ok ()) (member : route ∈ config.route)
    (listed : route.headers.request = some overrides ∨ route.headers.response = some overrides) :
    OrderFree overrides ↔ Agreeing overrides := by
  have checked := (Completeness.validateRoute_ok (Config.validate_route accepted member)).2.2.2
  have applied : ∀ entry ∈ overrides.entries, Applied entry := by
    intro entry inside
    refine Completeness.applied_header (checked entry ?_)
    rcases listed with request | response
    · simp [Config.HeaderConfig.all, request, inside]
    · simp [Config.HeaderConfig.all, response, inside]
  exact ⟨orderFree_agreeing applied, agreeing_orderFree applied⟩

/-! ## Two keys for one field -/

/-- A route that sets these fields of its requests. -/
def taggedRoute (overrides : StringMap) : Config.RouteConfig :=
  { Samples.route "api" "http://10.0.0.1:80" with headers := ⟨some overrides, none⟩ }

theorem order_free_iff_tags : OrderFree ⟨[("X-Tag", "a"), ("X-Gone", ""), ("x-tag", "a")], by decide⟩ := by
  have accepted : Config.validate Samples.build Samples.parseUri (Samples.config
      [taggedRoute ⟨[("X-Tag", "a"), ("X-Gone", ""), ("x-tag", "a")], by decide⟩]) = .ok () := by decide
  exact (order_free_iff accepted List.mem_cons_self (.inl rfl)).mpr (by decide)

/-- Of two accepted keys that mean one field the one that comes last decides. -/
theorem order_decides :
    Config.validate Samples.build Samples.parseUri (Samples.config
      [taggedRoute ⟨[("X-Tag", "a"), ("x-tag", "b")], by decide⟩]) = .ok () ∧
    ¬ OrderFree ⟨[("X-Tag", "a"), ("x-tag", "b")], by decide⟩ := by
  refine ⟨by decide, ?_⟩
  intro free
  have swapped := free ⟨[("x-tag", "b"), ("X-Tag", "a")], by decide⟩ (by decide) Multimap.empty
  have held := congrArg (fun headers : HeaderMap => headers.getAll ⟨"x-tag", by decide⟩) swapped
  revert held
  decide

end OverrideOrder
end Torana
