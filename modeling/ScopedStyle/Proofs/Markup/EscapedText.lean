import ScopedStyle.Proofs.Markup.Entity

/-!
# Escaped texts

The entities are written through the whole text, one kind after the other, and
reading back goes through it once, from left to right. What makes the two fit
(`Markup.escape_laws`):

* each character is written by itself, so a text is escaped part by part;
* what is escaped has none of the characters that could end it, and an ampersand
  only where an entity begins (`Markup.AmpersandsBegin`);
* so reading back finds the entities that were written and no others, and a text
  that looks escaped is told apart from the text that it would be read as.
-/

namespace ScopedStyle.Markup

variable {c : Char} {name cs ds : List Char}

/-- Every ampersand begins an entity with its semicolon. -/
def AmpersandsBegin (cs : List Char) : Prop :=
  ∀ before behind, cs = before ++ '&' :: behind →
    ∃ c name rest, Entity c name ∧ '&' :: behind = name ++ ';' :: rest

namespace AmpersandsBegin

theorem nil : AmpersandsBegin [] :=
  fun _ _ h => absurd h (by simp)

/-- Characters without an ampersand change nothing. -/
theorem append (hcs : '&' ∉ cs) (hds : AmpersandsBegin ds) : AmpersandsBegin (cs ++ ds) := by
  induction cs with
  | nil => exact hds
  | cons c cs ih =>
    obtain ⟨hfirst, hrest⟩ := not_or.1 (List.mem_cons.not.1 hcs)
    intro before behind h
    cases before with
    | nil => exact absurd (List.cons.inj h).1.symm hfirst
    | cons _ before => exact ih hrest before behind (List.cons.inj h).2

theorem entity (hname : Entity c name) (hds : AmpersandsBegin ds) :
    AmpersandsBegin (name ++ ';' :: ds) := by
  obtain ⟨cs, rfl, hcs⟩ := hname.exists_cons
  have hrest : AmpersandsBegin (cs ++ ([';'] ++ ds)) := (hds.append (by decide)).append hcs
  intro before behind h
  cases before with
  | nil => exact ⟨c, _, ds, hname, h.symm⟩
  | cons _ before => exact hrest before behind (List.cons.inj h).2

theorem escapeChar_append (c : Char) (hds : AmpersandsBegin ds) :
    AmpersandsBegin (escapeChar c ++ ds) := by
  rcases escapeChar_cases c with ⟨hplain, hc⟩ | ⟨name, hname, hc⟩
  · rw [hc]
    refine hds.append fun hmem => ?_
    rw [← List.mem_singleton.1 hmem] at hplain
    cases hplain
  · rw [hc, List.append_assoc]
    exact hds.entity hname

end AmpersandsBegin

theorem ampersandsBegin_escape (s : String) : AmpersandsBegin (escape s).toList := by
  rw [escape_eq, String.toList_ofList]
  induction s.toList with
  | nil => exact .nil
  | cons c cs ih =>
    rw [List.flatMap_cons]
    exact ih.escapeChar_append c

/-- Escaping character by character: a text is escaped part by part, nothing in it ends
    what it is put into, and reading the entities back gives the text. -/
theorem escape_laws (a b : String) :
    escape a = String.ofList (a.toList.flatMap escapeChar) ∧
    (∀ c, isEscaped c = false ∧ escapeChar c = [c] ∨
      ∃ name, Entity c name ∧ escapeChar c = name ++ [';']) ∧
    escape (a ++ b) = escape a ++ escape b ∧
    (∀ c ∈ ['<', '>', '"', '\''], c ∉ (escape a).toList) ∧
    AmpersandsBegin (escape a).toList ∧
    unescape (escape a) = a ∧
    (escape a = escape b → a = b) := by
  have hspecial : ∀ c ∈ ['<', '>', '"', '\''], isEscaped c = true ∧ c ≠ '&' := by
    intro c hc
    simp only [List.mem_cons, List.not_mem_nil, or_false] at hc
    rcases hc with rfl | rfl | rfl | rfl <;> decide
  refine ⟨escape_eq a, escapeChar_cases, ?_, fun c hc hmem => ?_, ampersandsBegin_escape a,
    unescape_escape a, fun h => ?_⟩
  · rw [escape, String.toList_append, replaceInTurn_append, String.ofList_append]
    rfl
  · obtain ⟨hescaped, hne⟩ := hspecial c hc
    exact hne (eq_ampersand_of_mem_escape hmem hescaped)
  · rw [← unescape_escape a, h, unescape_escape]

/-- A text that looks escaped is escaped once more, and not read as what it looks like. -/
theorem entity_text_laws : escape "&lt;" = "&amp;lt;" ∧ unescape (escape "&lt;") = "&lt;" ∧
    escape "&lt;" ≠ escape "<" ∧ escape "&lt;<" = escape "&lt;" ++ escape "<" ∧
    '<' ∉ (escape "&lt;").toList := by
  obtain ⟨-, -, hparts, hends, -, hread, hinjective⟩ := escape_laws "&lt;" "<"
  exact ⟨by decide +kernel, hread, fun h => absurd (hinjective h) (by decide), hparts,
    hends '<' (by decide)⟩

end ScopedStyle.Markup
