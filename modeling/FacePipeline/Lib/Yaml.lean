import Mathlib.Data.List.Basic

/-!
# YAML nodes

A parsed document, and looking a key up in it. `fill` writes out what a section leaves to its defaults; a reader
that falls back on the same defaults reads the same from both (`optional_fill`).
-/

namespace Yaml

inductive Node where
  | null
  | scalar (text : String)
  | sequence (items : List Node)
  | map (entries : List (String × Node))

variable {ε α : Type}

/-- `node[key]`. A key that is not there is not an error, but asking a scalar is. -/
def Node.get (badSubscript : String → ε) (node : Node) (key : String) : Except ε (Option Node) :=
  match node with
  | .null | .sequence _ => .ok none
  | .scalar _ => .error (badSubscript key)
  | .map entries => .ok (entries.lookup key)

/-- The value under a key, or the fallback. -/
def optional (badSubscript : String → ε) (as : Node → Except ε α) (node : Node) (key : String) (fallback : α) :
    Except ε α := do
  match ← node.get badSubscript key with
  | none => return fallback
  | some value => as value

/-- The value under a key that has to be there. -/
def require (badSubscript missing : String → ε) (as : Node → Except ε α) (node : Node) (key : String) :
    Except ε α := do
  match ← node.get badSubscript key with
  | none => throw (missing key)
  | some value => as value

variable {badSubscript missing : String → ε} {as : Node → Except ε α} {key : String} {fallback : α}
  {entries defaults : List (String × Node)} {node : Node}

@[simp] theorem get_null : Node.null.get badSubscript key = .ok none := rfl

@[simp] theorem get_map : (Node.map entries).get badSubscript key = .ok (entries.lookup key) := rfl

theorem optional_map_some {value : Node} (h : entries.lookup key = some value) :
    optional badSubscript as (.map entries) key fallback = as value := by
  simp only [optional, get_map, h]
  rfl

theorem optional_map_none (h : entries.lookup key = none) :
    optional badSubscript as (.map entries) key fallback = .ok fallback := by
  simp only [optional, get_map, h]
  rfl

theorem require_map_some {value : Node} (h : entries.lookup key = some value) :
    require badSubscript missing as (.map entries) key = as value := by
  simp only [require, get_map, h]
  rfl

/-! ### Defaults that are written out -/

/-- The first entry of a key counts, so defaults at the end only stand in for keys that are not there. -/
def Node.fill (defaults : List (String × Node)) : Node → Node
  | .null => .map defaults
  | .map entries => .map (entries ++ defaults)
  | node => node

theorem optional_fill {value : Node} (hlookup : defaults.lookup key = some value) (has : as value = .ok fallback) :
    optional badSubscript as (node.fill defaults) key fallback = optional badSubscript as node key fallback := by
  cases node with
  | scalar text => rfl
  | sequence items => rfl
  | null => exact (optional_map_some hlookup).trans has
  | map entries =>
    cases hentry : entries.lookup key with
    | none =>
      have hfilled : (entries ++ defaults).lookup key = some value := by
        rw [List.lookup_append, hentry, Option.none_or, hlookup]
      rw [optional_map_none hentry, Node.fill, optional_map_some hfilled, has]
    | some value' =>
      have hfilled : (entries ++ defaults).lookup key = some value' := by
        rw [List.lookup_append, hentry, Option.some_or]
      rw [optional_map_some hentry, Node.fill, optional_map_some hfilled]

theorem require_fill (hlookup : defaults.lookup key = none) :
    require badSubscript missing as (node.fill defaults) key = require badSubscript missing as node key := by
  cases node with
  | scalar text => rfl
  | sequence items => rfl
  | null =>
    simp only [require, Node.fill, get_map, hlookup, get_null]
  | map entries =>
    simp only [require, Node.fill, get_map, List.lookup_append, hlookup, Option.or_none]

/-- Rewriting every value by its key rewrites what a key finds. -/
theorem lookup_map_key (f : String → Node → Node) (entries : List (String × Node)) (key : String) :
    (entries.map fun entry => (entry.1, f entry.1 entry.2)).lookup key = (entries.lookup key).map (f key) := by
  induction entries with
  | nil => rfl
  | cons entry entries ih =>
    rw [List.map_cons, List.lookup_cons, List.lookup_cons]
    cases hkey : key == entry.1 with
    | false => exact ih
    | true =>
      rw [← eq_of_beq hkey]
      rfl

end Yaml
