import AppGate.Lib.Serde

/-!
# Structs from environment variables

The crate `envy` 0.4.2 reads a struct from a map, which has the variables of the process as its
entries. The crate is a parameter, of which two properties are used.

* `Vars`, `Envy`: the crate, as a derived deserializer sees it;
* `Envy.Flat`: all entries are texts, under names in lower case;
* **`Envy.not_mem_of_entry`**: an entry that is a struct is not read;
* `texts`: a crate with these properties.
-/

set_option autoImplicit false

/-- The environment of a process, in which all texts are Unicode. -/
abbrev Vars := List (String × String)

structure Envy where
  /-- How a name is compared with those of the fields. -/
  lower : String → String
  /-- The entries of the map. -/
  entries : Vars → List (String × String)
  /-- What an entry is as a `String`, -/
  string : String → Except String String
  /-- as a `u16`, -/
  u16 : String → Except String UInt16
  /-- and for the visitor of a struct. -/
  shown : String → Json.Value

namespace Envy

/-- The entries are the variables, and the visitor of a struct gets the text of an entry. -/
structure Flat (e : Envy) : Prop where
  entries : ∀ vars, e.entries vars = vars.map fun v => (e.lower v.1, v.2)
  shown : ∀ text, e.shown text = .string text

/-- **A struct among the entries** is its default, and no variable has its name. -/
theorem not_mem_of_entry {α : Type} {e : Envy} (he : e.Flat) {item : Json.Value → Except String α}
    (hitem : ∀ text, ∃ err, item (.string text) = .error err) {dflt a : α} {name : String}
    {vars : Vars}
    (h : Serde.entry (fun text => item (e.shown text)) dflt name (e.entries vars) = .ok a) :
    (∀ v ∈ vars, e.lower v.1 ≠ name) ∧ a = dflt := by
  rcases Serde.entry_eq_ok h with ⟨hnone, ha⟩ | ⟨text, htext⟩
  · rw [he.entries] at hnone
    exact ⟨fun v hv => hnone _ (List.mem_map_of_mem hv), ha⟩
  · obtain ⟨err, herr⟩ := hitem text
    rw [he.shown, herr] at htext
    cases htext

/-- `from_str` of a `u16`, without a sign. -/
def parseU16 (text : String) : Except String UInt16 :=
  match text.toList with
  | [] => .error "cannot parse integer from empty string"
  | cs =>
    if cs.all Char.isDigit then
      let n := cs.foldl (fun n c => 10 * n + (c.toNat - 48)) 0
      if n ≤ 65535 then .ok n.toUInt16 else .error "number too large to fit in target type"
    else .error "invalid digit found in string"

/-- A crate for names in ASCII. -/
def texts : Envy where
  lower name := String.ofList (name.toList.map Char.toLower)
  entries vars := vars.map fun v => (String.ofList (v.1.toList.map Char.toLower), v.2)
  string := .ok
  u16 := parseU16
  shown := .string

theorem texts_flat : texts.Flat := ⟨fun _ => rfl, fun _ => rfl⟩

end Envy
