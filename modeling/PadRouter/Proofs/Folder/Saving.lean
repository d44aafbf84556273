import PadRouter.Proofs.Register.FiniteMap
import PadRouter.Proofs.Text.Utf8
import PadRouter.Proofs.Toml.RoundTrip

/-!
# What is saved is loaded

* `Folder.readText_of_writeText` — a text that is written under a name is read under that name.
* `Register.load_of_save` — a saved register puts its records over those of another.
* `Config.load_of_save` — saved settings are loaded as they were, if they make sense.
-/

namespace PadRouter

variable {folder after : Folder} {path : String}

namespace Folder

theorem readText_of_writeText {s : String} (h : folder.writeText path s = .ok after) :
    after.readText path = .ok s := by
  have hread : after.read path = .ok (Utf8.encode s) := read_of_write h
  simp [readText, hread, Utf8.decode?_encode, bind, Except.bind]

end Folder

/-- What has no error has none under another wording. -/
theorem eq_ok_of_mapError {α β γ : Type} {f : α → β} {x : Except α γ} {c : γ}
    (h : x.mapError f = .ok c) : x = .ok c := by
  cases x with
  | ok c' => exact congrArg Except.ok (Except.ok.inj h)
  | error a => cases h

/-- A register that has been saved is loaded into another one: its records have precedence, and the
other models stay. -/
theorem Register.load_of_save {edits : List Register.Edit} (e : Register)
    (h : (Register.edited edits).save folder path = .ok after) :
    ∃ merged, e.load after path = .ok (merged, (Register.edited edits).size) ∧
      ∀ vendor product, merged.get? vendor product =
        ((Register.edited edits).get? vendor product).or (e.get? vendor product) := by
  obtain ⟨merged, hmerge, hget⟩ := mergeJson_toJson (keepsIds_edited edits) e
  have htext := Folder.readText_of_writeText (eq_ok_of_mapError h)
  refine ⟨merged, ?_, fun vendor product => hget ⟨vendor, product⟩⟩
  rw [load, htext]
  exact hmerge

/-- Settings that have been saved are loaded as they were, whatever edits their binding tables have
had. They are refused only if they make no sense. -/
theorem Config.load_of_save {c : Config}
    (hedited : ∀ id, ∃ edits, c.keyMaps.get id = KeyMap.edited edits)
    (h : c.save folder path = .ok after) :
    Config.load after path = c.validate.map fun _ => c := by
  have hint : ∀ n ∈ c.integers, n ≤ 0x7FFFFFFFFFFFFFFF := by
    by_contra hlarge
    simp only [not_forall, not_le] at hlarge
    obtain ⟨n, hn, hlarge⟩ := hlarge
    rw [save, toToml_of_large ⟨n, hn, hlarge⟩] at h
    cases h
  obtain ⟨text, htext, hread⟩ := exists_toml hedited hint
  rw [save, htext] at h
  rw [load, Folder.readText_of_writeText (eq_ok_of_mapError h)]
  exact hread

end PadRouter
