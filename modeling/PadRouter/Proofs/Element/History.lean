import Mathlib.Data.List.Destutter
import PadRouter.Element.ReadingDecoder

/-!
# What a decoder remembers

A decoder keeps a table of actions. Seen from outside it remembers, for each element, the last
reading that was decisive under the scheme of its time.

* `ReadingDecoder.Call`, `ReadingDecoder.run` — the calls to a decoder and the state after them.
* `Call.decides?` — the actions that a call stands for, as far as one element is concerned.
* `Latest` — the actions of the latest decisive call for an element since the last reset, told from
  the calls alone.
* `history_run` — the table holds just these.
* `emissions_eq_destutter`, `emissions_of_fresh`, `isChain_emissions` — what is emitted for an
  element are its decisions without repetitions.
* `emits_iff_changed` — the law of the history, for every run.
-/

namespace PadRouter.ReadingDecoder

/-- What can be asked of a decoder. -/
inductive Call
  | decode (reading : Reading)
  | setScheme (scheme : Scheme)
  | reset
  deriving DecidableEq, Repr

namespace Call

/-- The scheme in force after a call. -/
def scheme (old : Scheme) : Call → Scheme
  | setScheme new => new
  | _ => old

/-- The actions that a call decides for an element: those of a reading of the element, unless it has
no use under the scheme or rests between two states. -/
def decides? (rule : Axis.Rule) (s : Scheme) (e : Element) : Call → Option (List Action)
  | decode r => if r.element = e then s.translate rule r else none
  | _ => none

/-- Whether a call can matter to an element; only readings of other elements cannot. -/
def concerns (e : Element) : Call → Bool
  | decode r => r.element == e
  | _ => true

end Call

/-- The decoder after a call. -/
def perform (rule : Axis.Rule) (d : ReadingDecoder) : Call → ReadingDecoder
  | .decode r => (d.decode rule r).1
  | .setScheme s => d.setScheme s
  | .reset => d.reset

/-- The decoder after some calls. -/
def run (rule : Axis.Rule) (d : ReadingDecoder) (calls : List Call) : ReadingDecoder :=
  calls.foldl (perform rule) d

/-- What a call emits for an element. -/
def emits? (rule : Axis.Rule) (e : Element) (d : ReadingDecoder) : Call → Option (List Action)
  | .decode r => if r.element = e then (d.decode rule r).2 else none
  | _ => none

/-- What some calls emit for an element, in order. -/
def emissions (rule : Axis.Rule) (e : Element) : ReadingDecoder → List Call → List (List Action)
  | _, [] => []
  | d, call :: rest => (d.emits? rule e call).toList ++ emissions rule e (d.perform rule call) rest

/-! ### The calls alone -/

/-- The scheme in force after some calls. -/
def schemeAfter (s : Scheme) (calls : List Call) : Scheme := calls.foldl Call.scheme s

/-- What some calls decide for an element, in order. -/
def decisions (rule : Axis.Rule) (e : Element) : Scheme → List Call → List (List Action)
  | _, [] => []
  | s, call :: rest => (call.decides? rule s e).toList ++ decisions rule e (call.scheme s) rest

/-- The latest call that decides about an element decides for these actions, and there has been no
reset since. -/
def Latest (rule : Axis.Rule) (s : Scheme) (calls : List Call) (e : Element)
    (actions : List Action) : Prop :=
  ∃ before call after, calls = before ++ call :: after ∧
    call.decides? rule (schemeAfter s before) e = some actions ∧ .reset ∉ after ∧
    ∀ mid later rest, after = mid ++ later :: rest →
      later.decides? rule (schemeAfter s (before ++ call :: mid)) e = none

variable {rule : Axis.Rule} {s : Scheme} {calls : List Call} {e : Element} {call : Call}
  {actions old : List Action} {d : ReadingDecoder}

theorem schemeAfter_concat (s : Scheme) (calls : List Call) (call : Call) :
    schemeAfter s (calls ++ [call]) = call.scheme (schemeAfter s calls) := by
  simp [schemeAfter]

theorem not_latest_nil : ¬ Latest rule s [] e actions := by
  rintro ⟨before, call, after, hsplit, -⟩
  simp at hsplit

/-- A call in a list with one call at its end is that call, or one of those before it. -/
theorem concat_eq_split_iff {before after : List Call} {last : Call} :
    calls ++ [call] = before ++ last :: after ↔
      (after = [] ∧ calls = before ∧ call = last) ∨
        ∃ front, after = front ++ [call] ∧ calls = before ++ last :: front := by
  constructor
  · intro h
    rcases List.eq_nil_or_concat after with rfl | ⟨front, final, rfl⟩
    · obtain ⟨hcalls, hcall⟩ := List.append_inj' h rfl
      exact .inl ⟨rfl, hcalls, List.singleton_inj.mp hcall⟩
    · rw [List.concat_eq_append, ← List.cons_append, ← List.append_assoc] at h
      obtain ⟨hcalls, hcall⟩ := List.append_inj' h rfl
      rw [List.concat_eq_append, List.singleton_inj.mp hcall]
      exact .inr ⟨front, rfl, hcalls⟩
  · rintro (⟨rfl, rfl, rfl⟩ | ⟨front, rfl, rfl⟩)
    · rfl
    · simp

theorem not_latest_reset : ¬ Latest rule s (calls ++ [.reset]) e actions := by
  rintro ⟨before, call, after, hsplit, hdecides, hreset, -⟩
  rcases concat_eq_split_iff.mp hsplit with ⟨-, -, rfl⟩ | ⟨front, rfl, -⟩
  · simp [Call.decides?] at hdecides
  · simp at hreset

/-- A call that decides about the element is the latest one. -/
theorem latest_concat_of_decides (h : call.decides? rule (schemeAfter s calls) e = some old) :
    Latest rule s (calls ++ [call]) e actions ↔ actions = old := by
  constructor
  · rintro ⟨before, last, after, hsplit, hdecides, -, hsilent⟩
    rcases concat_eq_split_iff.mp hsplit with ⟨-, rfl, rfl⟩ | ⟨front, rfl, rfl⟩
    · rw [h] at hdecides
      exact (Option.some.inj hdecides).symm
    · have hnone := hsilent front call [] rfl
      rw [h] at hnone
      simp at hnone
  · rintro rfl
    refine ⟨calls, call, [], rfl, h, List.not_mem_nil, fun mid later rest hafter => ?_⟩
    simp at hafter

/-- A call that decides nothing about the element leaves the latest one as it is. -/
theorem latest_concat_of_silent (h : call.decides? rule (schemeAfter s calls) e = none)
    (hcall : call ≠ .reset) :
    Latest rule s (calls ++ [call]) e actions ↔ Latest rule s calls e actions := by
  constructor
  · rintro ⟨before, last, after, hsplit, hdecides, hreset, hsilent⟩
    rcases concat_eq_split_iff.mp hsplit with ⟨-, rfl, rfl⟩ | ⟨front, rfl, rfl⟩
    · simp [h] at hdecides
    · refine ⟨before, last, front, rfl, hdecides, fun hmem => hreset (by simp [hmem]), ?_⟩
      intro mid later rest hfront
      exact hsilent mid later (rest ++ [call]) (by simp [hfront])
  · rintro ⟨before, last, after, rfl, hdecides, hreset, hsilent⟩
    refine ⟨before, last, after ++ [call], by simp, hdecides, ?_, ?_⟩
    · simpa [hreset] using hcall.symm
    · intro mid later rest hafter
      rcases concat_eq_split_iff.mp hafter with ⟨-, rfl, rfl⟩ | ⟨front, -, rfl⟩
      · exact h
      · exact hsilent mid later front rfl

/-! ### The table -/

/-- What a call does to the table: a reset empties it, a decision is written over the old one. -/
theorem history_perform (rule : Axis.Rule) (d : ReadingDecoder) (call : Call) (e : Element) :
    (d.perform rule call).history.get? e =
      if call = .reset then none else (call.decides? rule d.scheme e).or (d.history.get? e) := by
  cases call with
  | setScheme s => simp [perform, setScheme, Call.decides?]
  | reset => rfl
  | decode r =>
    simp only [perform, decode, Call.decides?, reduceCtorEq, if_false]
    cases htranslate : d.scheme.translate rule r with
    | none => simp
    | some actions =>
      by_cases hold : d.history.get? r.element = some actions
      · by_cases he : r.element = e <;> simp_all
      · simp only [hold, if_false, Table.get?_insert]
        by_cases he : r.element = e
        · simp [he]
        · have hcompare : compare e r.element ≠ .eq := by
            intro h
            exact he (Std.LawfulEqCmp.eq_of_compare h).symm
          simp [he, hcompare]

theorem scheme_perform (rule : Axis.Rule) (d : ReadingDecoder) (call : Call) :
    (d.perform rule call).scheme = call.scheme d.scheme := by
  cases call with
  | setScheme s => rfl
  | reset => rfl
  | decode r =>
    simp only [perform, decode, Call.scheme]
    split
    · rfl
    · split <;> rfl

theorem run_concat (rule : Axis.Rule) (d : ReadingDecoder) (calls : List Call) (call : Call) :
    d.run rule (calls ++ [call]) = (d.run rule calls).perform rule call := by
  simp [run]

theorem scheme_run (rule : Axis.Rule) (d : ReadingDecoder) (calls : List Call) :
    (d.run rule calls).scheme = schemeAfter d.scheme calls := by
  induction calls using List.reverseRecOn with
  | nil => rfl
  | append_singleton calls call ih => rw [run_concat, scheme_perform, ih, schemeAfter_concat]

/-- The table holds the actions of the latest decisive calls. -/
theorem history_run (rule : Axis.Rule) (s : Scheme) (calls : List Call) (e : Element)
    (actions : List Action) :
    (run rule { scheme := s } calls).history.get? e = some actions ↔
      Latest rule s calls e actions := by
  induction calls using List.reverseRecOn with
  | nil => simp [run, not_latest_nil]
  | append_singleton calls call ih =>
    rw [run_concat, history_perform, scheme_run]
    by_cases hcall : call = .reset
    · simp [hcall, not_latest_reset]
    · rw [if_neg hcall]
      cases hdecides : call.decides? rule (schemeAfter s calls) e with
      | none => rw [latest_concat_of_silent hdecides hcall, Option.none_or, ih]
      | some new => rw [latest_concat_of_decides hdecides, Option.some_or, Option.some_inj, eq_comm]

/-! ### What is emitted -/

/-- A decision is emitted if the table does not hold it. -/
theorem emits?_eq (rule : Axis.Rule) (e : Element) (d : ReadingDecoder) (call : Call) :
    d.emits? rule e call =
      (call.decides? rule d.scheme e).filter fun actions => d.history.get? e ≠ some actions := by
  cases call with
  | setScheme s => rfl
  | reset => rfl
  | decode r =>
    simp only [emits?, Call.decides?]
    split
    next he =>
      simp only [decode, he]
      cases d.scheme.translate rule r with
      | none => rfl
      | some actions =>
        by_cases hold : d.history.get? e = some actions
        · simp [hold, Option.filter]
        · simp [hold, Option.filter]
    next => rfl

/-- Together with what the table holds before, the emissions are the decisions without
repetitions. -/
theorem emissions_eq_destutter (rule : Axis.Rule) (e : Element) (d : ReadingDecoder)
    (h : .reset ∉ calls) :
    (d.history.get? e).toList ++ emissions rule e d calls =
      ((d.history.get? e).toList ++ decisions rule e d.scheme calls).destutter (· ≠ ·) := by
  induction calls generalizing d with
  | nil => cases hhistory : d.history.get? e <;> simp [emissions, decisions]
  | cons call rest ih =>
    have hcall : call ≠ .reset := fun heq => h (by simp [heq])
    have hrest := ih (d.perform rule call) fun hmem => h (by simp [hmem])
    rw [history_perform, if_neg hcall, scheme_perform] at hrest
    simp only [emissions, decisions, emits?_eq]
    cases hdecides : call.decides? rule d.scheme e with
    | none => simpa [hdecides] using hrest
    | some actions =>
      simp only [hdecides, Option.some_or, Option.toList_some, List.singleton_append] at hrest
      cases hhistory : d.history.get? e with
      | none => simpa [Option.filter] using hrest
      | some old =>
        by_cases hold : old = actions
        · simpa [hold, Option.filter, List.destutter_cons_cons, ← List.destutter_cons'] using hrest
        · simpa [hold, Option.filter, List.destutter_cons_cons, ← List.destutter_cons'] using hrest

/-- Readings of other elements can be left out. -/
theorem emissions_filter {d' : ReadingDecoder} (hscheme : d.scheme = d'.scheme)
    (hhistory : d.history.get? e = d'.history.get? e) :
    emissions rule e d (calls.filter (Call.concerns e)) = emissions rule e d' calls := by
  induction calls generalizing d d' with
  | nil => rfl
  | cons call rest ih =>
    by_cases hconcerns : call.concerns e = true
    · rw [List.filter_cons_of_pos hconcerns]
      have hemits : d.emits? rule e call = d'.emits? rule e call := by
        rw [emits?_eq, emits?_eq, hscheme, hhistory]
      rw [emissions, emissions, hemits]
      congr 1
      refine ih ?_ ?_
      · rw [scheme_perform, scheme_perform, hscheme]
      · rw [history_perform, history_perform, hscheme, hhistory]
    · rw [List.filter_cons_of_neg hconcerns]
      -- a reading of another element
      cases call with
      | setScheme s => simp [Call.concerns] at hconcerns
      | reset => simp [Call.concerns] at hconcerns
      | decode r =>
        have hother : r.element ≠ e := by simpa [Call.concerns] using hconcerns
        have hsilent : Call.decides? rule d'.scheme e (.decode r) = none := by
          simp [Call.decides?, hother]
        rw [emissions, emits?_eq, hsilent]
        refine ih ?_ ?_
        · exact hscheme.trans (scheme_perform rule d' (.decode r)).symm
        · rw [history_perform, hsilent, hhistory]
          simp

/-- A decoder that knows nothing of an element emits all decisions but the repetitions. -/
theorem emissions_of_fresh (hstart : d.history.get? e = none) (h : .reset ∉ calls) :
    emissions rule e d calls = (decisions rule e d.scheme calls).destutter (· ≠ ·) := by
  have hdestutter := emissions_eq_destutter rule e d h
  rw [hstart] at hdestutter
  exact hdestutter

theorem isChain_emissions (h : .reset ∉ calls) : (emissions rule e d calls).IsChain (· ≠ ·) := by
  have hchain := List.isChain_destutter (· ≠ ·)
    ((d.history.get? e).toList ++ decisions rule e d.scheme calls)
  rw [← emissions_eq_destutter rule e d h] at hchain
  exact hchain.right_of_append

/-- **The law of the history.** After every run a reading is emitted if and only if it is decisive
under the scheme in force and the latest decision about its element since the last reset was another
one, or there was none. A reading that is not decisive changes nothing; readings of other elements
do not count; after a reset, the emissions for an element are its decisions without repetitions; and
no two emissions in a row are the same until the next reset. -/
theorem emits_iff_changed (rule : Axis.Rule) (s : Scheme) (calls : List Call) :
    let d := run rule { scheme := s } calls
    (∀ r actions, (d.decode rule r).2 = some actions ↔
      (schemeAfter s calls).translate rule r = some actions ∧
        ((∃ old, Latest rule s calls r.element old ∧ old ≠ actions) ∨
          ¬ ∃ old, Latest rule s calls r.element old)) ∧
    (∀ r, (schemeAfter s calls).translate rule r = none → d.decode rule r = (d, none)) ∧
    (∀ e more, emissions rule e d (more.filter (Call.concerns e)) = emissions rule e d more) ∧
    (∀ e more, .reset ∉ more →
      emissions rule e d.reset more =
        (decisions rule e (schemeAfter s calls) more).destutter (· ≠ ·)) ∧
    ∀ e more, .reset ∉ more → (emissions rule e d more).IsChain (· ≠ ·) := by
  intro d
  have hscheme : d.scheme = schemeAfter s calls := scheme_run rule { scheme := s } calls
  have hhistory : ∀ e old, d.history.get? e = some old ↔ Latest rule s calls e old :=
    history_run rule s calls
  refine ⟨fun r actions => ?_, fun r hquiet => ?_, fun e more => emissions_filter rfl rfl,
    fun e more hmore => ?_, fun e more hmore => isChain_emissions hmore⟩
  · have hemits := emits?_eq rule r.element d (.decode r)
    simp only [emits?, Call.decides?, if_true, hscheme] at hemits
    rw [hemits, Option.filter_eq_some_iff]
    refine and_congr_right fun _ => ?_
    simp only [← hhistory]
    cases d.history.get? r.element <;> simp
  · simp only [decode, hscheme, hquiet]
  · rw [← hscheme]
    exact emissions_of_fresh (Table.get?_empty e) hmore

end PadRouter.ReadingDecoder
