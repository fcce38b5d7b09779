import Mathlib.Data.List.Induction
import SpotMargin.Proofs.Config.Statement

/-!
# Where assignments stand

A line stands in the section of the last header before it, so a section that is opened again goes
on.  `Given` is what the assignments to a key in a section amount to: the last of them counts, and
a fallback when there is none.
-/

namespace SpotMargin
namespace Config

variable {lines : List (List Char)} {line : List Char} {opened other : Section}
  {current : Option Section} {key value : String}

/-- Either an item is the last one, or it stands before the last one. -/
theorem concat_eq_append_cons_iff {α : Type} {items front back : List α} {last item : α} :
    items ++ [last] = front ++ item :: back ↔
      (items = front ∧ last = item ∧ back = []) ∨
        ∃ rest, items = front ++ item :: rest ∧ back = rest ++ [last] := by
  rcases List.eq_nil_or_concat back with rfl | ⟨rest, end_, rfl⟩
  · simp
  · rw [List.concat_eq_append]
    constructor
    · intro same
      have regrouped : items ++ [last] = (front ++ item :: rest) ++ [end_] := by simpa using same
      obtain ⟨items_eq, last_eq⟩ := List.append_inj' regrouped rfl
      cases last_eq
      exact .inr ⟨rest, items_eq, rfl⟩
    · rintro (⟨-, -, nonempty⟩ | ⟨other, rfl, back_eq⟩)
      · simp at nonempty
      · rw [back_eq]
        simp

/-- The line is a header. -/
def IsHeader (line : List Char) : Prop :=
  ∃ title, Line.Says line (.header title)

/-- The line is the header of the section. -/
def Opens (line : List Char) (opened : Section) : Prop :=
  ∃ title, Line.Says line (.header title) ∧ Section.Titled title.toList opened

theorem Opens.isHeader (opens : Opens line opened) : IsHeader line :=
  let ⟨title, said, _⟩ := opens
  ⟨title, said⟩

/-- A line opens one section. -/
theorem Opens.unique (opens : Opens line opened) (other_opens : Opens line other) :
    opened = other := by
  obtain ⟨title, said, titled⟩ := opens
  obtain ⟨_, other_said, other_titled⟩ := other_opens
  cases said.unique other_said
  exact Except.ok.inj
    ((Section.ofTitle_of_titled titled).symm.trans (Section.ofTitle_of_titled other_titled))

theorem not_isHeader_of_said {meaning : Line} (said : Line.Says line meaning)
    (other : ∀ title, meaning ≠ .header title) : ¬IsHeader line := by
  rintro ⟨title, header⟩
  exact other title (said.unique header)

/-- What follows the lines stands in this section, that of the last header among them; in none when
there is no header. -/
def Standing (lines : List (List Char)) : Option Section → Prop
  | none => ∀ line ∈ lines, ¬IsHeader line
  | some opened => ∃ front header back, lines = front ++ header :: back ∧ Opens header opened ∧
      ∀ line ∈ back, ¬IsHeader line

theorem standing_nil : Standing [] none := by
  intro line mem
  cases mem

theorem Standing.opens (lines : List (List Char)) (opens : Opens line opened) :
    Standing (lines ++ [line]) (some opened) :=
  ⟨lines, line, [], rfl, opens, fun _ mem => by cases mem⟩

theorem Standing.keep (standing : Standing lines current) (plain : ¬IsHeader line) :
    Standing (lines ++ [line]) current := by
  have keep {back : List (List Char)} (headerless : ∀ line ∈ back, ¬IsHeader line) :
      ∀ other ∈ back ++ [line], ¬IsHeader other := by
    intro other mem
    rcases List.mem_append.mp mem with mem | mem
    · exact headerless other mem
    · rwa [List.mem_singleton.mp mem]
  cases current with
  | none => exact keep standing
  | some opened =>
      obtain ⟨front, header, back, rfl, opens, headerless⟩ := standing
      exact ⟨front, header, back ++ [line], by simp, opens, keep headerless⟩

/-- The last line opens the section, or it is no header. -/
theorem Standing.of_concat (standing : Standing (lines ++ [line]) current) :
    (∃ opened, Opens line opened ∧ current = some opened) ∨
      (¬IsHeader line ∧ Standing lines current) := by
  cases current with
  | none =>
      refine .inr ⟨standing line (by simp), fun other mem => standing other ?_⟩
      exact List.mem_append_left _ mem
  | some opened =>
      obtain ⟨front, header, back, lines_eq, opens, headerless⟩ := standing
      rcases concat_eq_append_cons_iff.mp lines_eq with ⟨rfl, rfl, rfl⟩ | ⟨rest, rfl, rfl⟩
      · exact .inl ⟨opened, opens, rfl⟩
      · refine .inr ⟨headerless line (by simp), front, header, rest, rfl, opens, ?_⟩
        exact fun other mem => headerless other (List.mem_append_left _ mem)

/-- Lines are followed by one section. -/
theorem Standing.unique {after : Option Section} (standing : Standing lines current)
    (other_standing : Standing lines after) : current = after := by
  -- The last header settles it, so the lines are taken off the end until it is there.
  induction lines using List.reverseRecOn with
  | nil =>
      have none_of_nil {current : Option Section} (standing : Standing [] current) :
          current = none := by
        cases current with
        | none => rfl
        | some opened =>
            obtain ⟨front, header, back, same, -, -⟩ := standing
            simp at same
      rw [none_of_nil standing, none_of_nil other_standing]
  | append_singleton lines line ih =>
      rcases standing.of_concat with ⟨opened, opens, rfl⟩ | ⟨plain, standing⟩ <;>
        rcases other_standing.of_concat with
          ⟨other, other_opens, rfl⟩ | ⟨other_plain, other_standing⟩
      · rw [opens.unique other_opens]
      · exact absurd opens.isHeader other_plain
      · exact absurd other_opens.isHeader plain
      · exact ih standing other_standing

theorem Standing.exists_opens (standing : Standing lines (some opened)) :
    ∃ line ∈ lines, Opens line opened := by
  obtain ⟨front, header, back, rfl, opens, -⟩ := standing
  exact ⟨header, by simp, opens⟩

/-- The line, which stands after `lines`, assigns the value to the key in the section. -/
def AssignsAfter (lines : List (List Char)) (line : List Char) (opened : Section)
    (key value : String) : Prop :=
  Standing lines (some opened) ∧ Line.Says line (.assignment key value)

/-- A line assigns one value to one key of one section. -/
theorem AssignsAfter.unique {other_key other_value : String}
    (assigns : AssignsAfter lines line opened key value)
    (other_assigns : AssignsAfter lines line other other_key other_value) :
    opened = other ∧ key = other_key ∧ value = other_value := by
  cases assigns.1.unique other_assigns.1
  cases assigns.2.unique other_assigns.2
  exact ⟨rfl, rfl, rfl⟩

theorem AssignsAfter.not_opens (assigns : AssignsAfter lines line opened key value)
    (other : Section) : ¬Opens line other := by
  rintro ⟨title, header, -⟩
  cases assigns.2.unique header

/-- One of the lines assigns the value to the key in the section. -/
def Assigns (lines : List (List Char)) (opened : Section) (key value : String) : Prop :=
  ∃ front line back, lines = front ++ line :: back ∧ AssignsAfter front line opened key value

/-- The last of the lines that assign something to the key in the section assigns the value. -/
def LastAssigns (lines : List (List Char)) (opened : Section) (key value : String) : Prop :=
  ∃ front line back, lines = front ++ line :: back ∧ AssignsAfter front line opened key value ∧
    ∀ between later rest other, back = between ++ later :: rest →
      ¬AssignsAfter (front ++ line :: between) later opened key other

theorem assigns_concat_iff :
    Assigns (lines ++ [line]) opened key value ↔
      Assigns lines opened key value ∨ AssignsAfter lines line opened key value := by
  constructor
  · rintro ⟨front, item, back, lines_eq, assigns⟩
    rcases concat_eq_append_cons_iff.mp lines_eq with ⟨rfl, rfl, rfl⟩ | ⟨rest, rfl, rfl⟩
    · exact .inr assigns
    · exact .inl ⟨front, item, rest, rfl, assigns⟩
  · rintro (⟨front, item, back, rfl, assigns⟩ | assigns)
    · exact ⟨front, item, back ++ [line], by simp, assigns⟩
    · exact ⟨lines, line, [], rfl, assigns⟩

theorem lastAssigns_concat_iff :
    LastAssigns (lines ++ [line]) opened key value ↔
      AssignsAfter lines line opened key value ∨
        ((∀ other, ¬AssignsAfter lines line opened key other) ∧
          LastAssigns lines opened key value) := by
  constructor
  · rintro ⟨front, item, back, lines_eq, assigns, last⟩
    rcases concat_eq_append_cons_iff.mp lines_eq with ⟨rfl, rfl, rfl⟩ | ⟨rest, rfl, rfl⟩
    · exact .inl assigns
    · refine .inr ⟨fun other => last rest line [] other rfl, front, item, rest, rfl, assigns, ?_⟩
      intro between later after other rest_eq
      exact last between later (after ++ [line]) other (by simp [rest_eq])
  · rintro (assigns | ⟨plain, front, item, back, rfl, assigns, last⟩)
    · exact ⟨lines, line, [], rfl, assigns, fun _ _ _ _ same => by simp at same⟩
    · refine ⟨front, item, back ++ [line], by simp, assigns, ?_⟩
      intro between later rest other back_eq
      rcases concat_eq_append_cons_iff.mp back_eq with ⟨rfl, rfl, rfl⟩ | ⟨after, rfl, rfl⟩
      · exact plain other
      · exact last between later after other rfl

theorem Assigns.exists_opens (assigns : Assigns lines opened key value) :
    ∃ line ∈ lines, Opens line opened := by
  obtain ⟨front, line, back, rfl, standing, -⟩ := assigns
  obtain ⟨header, mem, opens⟩ := standing.exists_opens
  exact ⟨header, List.mem_append_left _ mem, opens⟩

theorem LastAssigns.assigns (last : LastAssigns lines opened key value) :
    Assigns lines opened key value := by
  obtain ⟨front, line, back, lines_eq, assigns, -⟩ := last
  exact ⟨front, line, back, lines_eq, assigns⟩

/-- Where something is assigned to a key, something is assigned to it last. -/
theorem Assigns.exists_last (assigns : Assigns lines opened key value) :
    ∃ value, LastAssigns lines opened key value := by
  induction lines using List.reverseRecOn with
  | nil =>
      obtain ⟨front, line, back, same, -⟩ := assigns
      simp at same
  | append_singleton lines line ih =>
      by_cases here : ∃ value, AssignsAfter lines line opened key value
      · obtain ⟨value, here⟩ := here
        exact ⟨value, lastAssigns_concat_iff.mpr (.inl here)⟩
      · rcases assigns_concat_iff.mp assigns with before | last
        · obtain ⟨value, before⟩ := ih before
          exact ⟨value, lastAssigns_concat_iff.mpr (.inr ⟨not_exists.mp here, before⟩)⟩
        · exact absurd ⟨_, last⟩ here

section Given

variable {α : Type} {names : String → α → Prop} {fallback a b : α}

/-- The last assignment to the key in the section names `a`, where `names` tells what a value names;
without an assignment it is the fallback. -/
structure Given (lines : List (List Char)) (opened : Section) (key : String)
    (names : String → α → Prop) (fallback a : α) : Prop where
  last : ∀ value, LastAssigns lines opened key value → names value a
  none : (∀ value, ¬Assigns lines opened key value) → a = fallback

/-- A section that has not been opened leaves everything at its fallback. -/
theorem Given.of_unopened (unopened : ∀ line ∈ lines, ¬Opens line opened) (key : String)
    (names : String → α → Prop) (fallback : α) :
    Given lines opened key names fallback fallback where
  last := by
    intro value last
    obtain ⟨line, mem, opens⟩ := last.assigns.exists_opens
    exact absurd opens (unopened line mem)
  none := fun _ => rfl

/-- What the line, which stands after `lines`, makes of `a`: what it assigns to the key in the
section, or `a` itself when it assigns nothing to it. -/
structure ValueEffect (lines : List (List Char)) (line : List Char) (opened : Section)
    (key : String) (names : String → α → Prop) (a b : α) : Prop where
  assigned : ∀ value, AssignsAfter lines line opened key value → names value b
  kept : (∀ value, ¬AssignsAfter lines line opened key value) → b = a

theorem ValueEffect.assign (assigns : AssignsAfter lines line opened key value)
    (named : names value b) : ValueEffect lines line opened key names a b where
  assigned := by
    intro other other_assigns
    obtain ⟨-, -, rfl⟩ := assigns.unique other_assigns
    exact named
  kept := fun plain => absurd assigns (plain value)

theorem ValueEffect.keep (plain : ∀ value, ¬AssignsAfter lines line opened key value) (a : α) :
    ValueEffect lines line opened key names a a where
  assigned := fun value assigns => absurd assigns (plain value)
  kept := fun _ => rfl

/-- One more line leads from what was given to what is given. -/
theorem Given.concat (given : Given lines opened key names fallback a)
    (effect : ValueEffect lines line opened key names a b) :
    Given (lines ++ [line]) opened key names fallback b where
  last := by
    intro value last
    rcases lastAssigns_concat_iff.mp last with here | ⟨plain, before⟩
    · exact effect.assigned value here
    · rw [effect.kept plain]
      exact given.last value before
  none := by
    intro absent
    rw [effect.kept fun value here => absent value (assigns_concat_iff.mpr (.inr here))]
    exact given.none fun value before => absent value (assigns_concat_iff.mpr (.inl before))

/-- The lines settle what is given, as long as a value names one thing. -/
theorem Given.unique (given : Given lines opened key names fallback a)
    (other_given : Given lines opened key names fallback b)
    (functional : ∀ value, names value a → names value b → a = b) : a = b := by
  by_cases assigned : ∃ value, Assigns lines opened key value
  · obtain ⟨value, assigns⟩ := assigned
    obtain ⟨value, last⟩ := assigns.exists_last
    exact functional value (given.last value last) (other_given.last value last)
  · rw [given.none (not_exists.mp assigned), other_given.none (not_exists.mp assigned)]

end Given

end Config
end SpotMargin
