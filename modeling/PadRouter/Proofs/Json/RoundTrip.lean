import PadRouter.Proofs.Json.Spelling
import PadRouter.Proofs.Tree.Restoring

/-!
# Round trips through JSON

* `Json.read?` — a stored value of any type, read off a JSON text.
* `Json.RoundTrips` — a value that comes back from the texts written for it, and from all texts that
  leave out fields which hold their defaults.
* `Json.stored_values_round_trip` — every stored value comes back so.
-/

namespace PadRouter.Json

open Storable

variable {α : Type} [Storable α] [Trimmable α] {a : α}

/-- The value of a text. -/
def read? (α : Type) [Storable α] (text : String) : Option α := parse? text >>= ofTree? dialect

/-- A value that is read back, whether it is written in one line or in several, and from every text
of a tree that its tree can be trimmed to. -/
structure RoundTrips (a : α) : Prop where
  written : read? α (render (toTree a)) = some a
  indented : read? α (renderPretty (toTree a)) = some a
  trimmed {t : Tree} : Trims α (toTree a) t →
    read? α (render t) = some a ∧ read? α (renderPretty t) = some a ∧
      ∀ text : String, Padded Spells text.toList t → read? α text = some a

theorem roundTrips_of_restores (h : Restores a) : RoundTrips a := by
  have hspelled {t : Tree} (ht : Trims α (toTree a) t) {text : String}
      (htext : Padded Spells text.toList t) : read? α text = some a := by
    rw [read?, parse?_of_spells htext]
    exact (h.read ht).2 dialect
  have htrimmed {t : Tree} (ht : Trims α (toTree a) t) :
      read? α (render t) = some a ∧ read? α (renderPretty t) = some a :=
    have htexts := spells_render (h.read ht).1
    ⟨hspelled ht htexts.1, hspelled ht htexts.2⟩
  exact ⟨(htrimmed h.whole).1, (htrimmed h.whole).2, fun ht =>
    ⟨(htrimmed ht).1, (htrimmed ht).2, fun text htext => hspelled ht htext⟩⟩

/-- Every stored value comes back from JSON, key modifiers included, with or without the fields that
hold their defaults. Of binding tables this holds after any edits. -/
theorem stored_values_round_trip :
    (∀ a : Action, RoundTrips a) ∧ (∀ b : Bindable, RoundTrips b) ∧ (∀ p : Port, RoundTrips p) ∧
      (∀ k : PadKind, RoundTrips k) ∧ (∀ id : KeyMapId, RoundTrips id) ∧
      (∀ m : Modifiers, RoundTrips m) ∧ (∀ k : Key, RoundTrips k) ∧
      (∀ b : KeyBinding, RoundTrips b) ∧ (∀ edits, RoundTrips (KeyMap.edited edits)) ∧
      (∀ edits, RoundTrips (KeyMaps.edited edits)) ∧ (∀ l : LeftStick, RoundTrips l) ∧
      (∀ r : RightStick, RoundTrips r) ∧ (∀ h : Hat, RoundTrips h) ∧
      (∀ s : Scheme, RoundTrips s) ∧ (∀ r : Record, RoundTrips r) ∧
      (∀ v : Device, RoundTrips v) ∧
      ∀ (c : Config) (edits), RoundTrips { c with keyMaps := KeyMaps.edited edits } := by
  refine ⟨fun a => ?_, fun b => ?_, fun p => ?_, fun k => ?_, fun id => ?_, fun m => ?_,
    fun k => ?_, fun b => ?_, fun edits => ?_, fun edits => ?_, fun l => ?_, fun r => ?_, fun h => ?_,
    fun s => ?_, fun r => ?_, fun v => ?_, fun c edits => ?_⟩
  · exact roundTrips_of_restores (restores_action a)
  · exact roundTrips_of_restores (restores_bindable b)
  · exact roundTrips_of_restores (restores_port p)
  · exact roundTrips_of_restores (restores_padKind k)
  · exact roundTrips_of_restores (restores_keyMapId id)
  · exact roundTrips_of_restores (restores_modifiers m)
  · exact roundTrips_of_restores (restores_key k)
  · exact roundTrips_of_restores (restores_keyBinding b)
  · exact roundTrips_of_restores (restores_keyMap (KeyMap.oneKey_edited edits))
  · exact roundTrips_of_restores (restores_keyMaps (KeyMaps.oneKey_edited edits))
  · exact roundTrips_of_restores (restores_leftStick l)
  · exact roundTrips_of_restores (restores_rightStick r)
  · exact roundTrips_of_restores (restores_hat h)
  · exact roundTrips_of_restores (restores_scheme s)
  · exact roundTrips_of_restores (restores_deviceRecord r)
  · exact roundTrips_of_restores (restores_device v)
  · exact roundTrips_of_restores (restores_config (KeyMaps.oneKey_edited edits))

/-- A record may leave out all fields but its identifiers, and inside its scheme both sticks. -/
example :
    read? Record "\x7b\"product_id\": \"b\", \"vendor_id\": \"a\", \"scheme\": \x7b\"hat\":1\x7d\x7d" =
      some { vendorId := "a", productId := "b", scheme := { hat := .h1h8 } } := by
  decide +kernel

end PadRouter.Json
