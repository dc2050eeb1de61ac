import ScopedStyle.Proofs.Markup.Skeleton
import ScopedStyle.Proofs.Markup.StyleAttribute
import ScopedStyle.Widget.Button
import ScopedStyle.Widget.Heading
import ScopedStyle.Widget.Spacer

/-!
# The skeletons of widgets

What a widget takes from its settings goes into its markup as texts and as
values of attributes, all of which are escaped. So the settings leave nothing in
the skeleton of the markup, apart from what the widget decides by them: which
element a heading is, and whether a link, an icon or inline declarations are
there at all (`Instance.skeleton_markup`). This is so for every instance, of
whatever schemas.

The declarations of the style attribute are cut at their ends after they have
been escaped. This may break an entity, but brings no delimiter back
(`Schema.plain_styleAttribute`).
-/

namespace ScopedStyle

open Markup

/-! ### Attributes -/

namespace Schema

variable (s : Schema) (t : Tree)

/-- What the fields contribute to the markup is escaped. -/
theorem plain_of_mem_markupTexts {templateOf : Field → Option Template} {text : String}
    (h : text ∈ s.markupTexts t templateOf) : Plain text := by
  rw [markupTexts] at h
  split at h
  · obtain ⟨e, -, h⟩ := List.mem_filterMap.1 h
    obtain ⟨template, -, h⟩ := Option.bind_eq_some_iff.1 h
    rw [e.markup?_eq_rendered?] at h
    obtain ⟨rendered, -, rfl⟩ := Option.map_eq_some_iff.1 (Option.filter_eq_some_iff.1 h).1
    exact plain_escape rendered
  · cases h

theorem plain_cssClasses : Plain (s.cssClasses t) :=
  plain_intercalate (by decide) fun _ h => s.plain_of_mem_markupTexts t h

/-- A declaration is a part of its text. -/
theorem mem_of_mem_bareDeclaration {text : String} {c : Char}
    (h : c ∈ (bareDeclaration text).toList) : c ∈ text.toList := by
  rw [bareDeclaration, String.toList_ofList] at h
  have hdropped : c ∈ Text.dropEndWhile (· = ';') text.toList :=
    (List.dropWhile_sublist _).mem ((List.rdropWhile_prefix _ _).mem h)
  exact (List.rdropWhile_prefix _ _).mem hdropped

theorem plain_styleAttribute : Plain (s.styleAttribute t) := by
  -- Cutting an escaped text may break an entity, but takes characters away only.
  refine plain_intercalate (by decide) fun declaration h => ?_
  obtain ⟨text, htext, rfl⟩ := List.mem_map.1 (List.mem_filter.1 h).1
  exact fun c hc => s.plain_of_mem_markupTexts t htext c (mem_of_mem_bareDeclaration hc)

end Schema

namespace Instance

variable (i : Instance)

/-- The skeleton of the attributes of an element. -/
def attributesSkeleton (styled : Bool) : String :=
  "id=\"\" class=\"\"" ++ if styled then " style=\"\"" else ""

/-- An attribute leaves its name and its quotes. -/
theorem shows_attributeText {name value : String} (hname : Shows .tag .tag name name)
    (hvalue : Plain value) : Shows .tag .tag (attributeText name value) (name ++ "=\"\"") := by
  have hshows := ((hname.append (show Shows .tag .value "=\"" "=\"" by decide)).append
    (.plain (by decide) hvalue)).append (show Shows .value .tag "\"" "\"" by decide)
  have heq : name ++ "=\"" ++ "" ++ "\"" = name ++ "=\"\"" := by
    rw [String.append_empty, String.append_assoc]
    rfl
  rwa [heq] at hshows

theorem plain_classes {baseClass : String} (h : Plain baseClass) :
    Plain (if i.cssClasses.isEmpty then baseClass else baseClass ++ " " ++ i.cssClasses) := by
  split
  · exact h
  · exact plain_append_iff.2
      ⟨plain_append_iff.2 ⟨h, by decide⟩, i.general.plain_cssClasses _⟩

/-- The attributes of an element leave their names and quotes. -/
theorem shows_wrapperAttributes {baseClass : String} (h : Plain baseClass) :
    Shows .tag .tag (i.wrapperAttributes baseClass)
      (attributesSkeleton (!i.styleAttribute.isEmpty)) := by
  have hid : Shows .tag .tag (attributeText "id" (escape i.id)) _ :=
    shows_attributeText (by decide) (plain_escape i.id)
  have hclass : Shows .tag .tag (attributeText "class" _) _ :=
    shows_attributeText (by decide) (i.plain_classes h)
  have hboth := (hid.append (show Shows .tag .tag " " " " by decide)).append hclass
  rw [wrapperAttributes, attributesSkeleton]
  refine hboth.append ?_
  cases i.styleAttribute.isEmpty with
  | true => exact (show Shows .tag .tag "" "" by decide)
  | false =>
    have hstyle : Shows .tag .tag (attributeText "style" i.styleAttribute) _ :=
      shows_attributeText (by decide) (i.general.plain_styleAttribute _)
    exact (show Shows .tag .tag " " " " by decide).append hstyle

/-- The element around a widget begins with these attributes. -/
theorem shows_opening {baseClass : String} (h : Plain baseClass) :
    Shows .text .tag ("<div " ++ i.wrapperAttributes baseClass)
      ("<div " ++ attributesSkeleton (!i.styleAttribute.isEmpty)) :=
  (show Shows .text .tag "<div " "<div " by decide).append (i.shows_wrapperAttributes h)

end Instance

/-! ### Headings -/

namespace Heading

variable (i : Instance)

/-- The skeleton of a heading. -/
def skeleton (tag : String) (linked styled : Bool) : String :=
  "<div " ++ Instance.attributesSkeleton styled ++ "><" ++ tag ++ " class=\"\">" ++
    (if linked then "<a href=\"\"></a>" else "") ++ "</" ++ tag ++ "></div>"

/-- The element of a heading is one of the six. -/
theorem tagOf_mem_tags : tagOf i ∈ tags.map Choice.value := by
  rw [tagOf]
  split
  · rename_i h
    simpa using h
  · decide

theorem shows_tagOf : Shows .tag .tag (tagOf i) (tagOf i) := by
  have htags : ∀ tag ∈ tags.map Choice.value, Shows .tag .tag tag tag := by decide
  exact htags _ (tagOf_mem_tags i)

/-- What is inside a heading leaves its link, if there is one. -/
theorem shows_inner : Shows .text .text (inner i)
    (if !(i.text "content.link").isEmpty then "<a href=\"\"></a>" else "") := by
  have htitle : Shows .text .text (i.escaped "content.title") "" :=
    .plain (by decide) (plain_escape _)
  have hempty : (i.text "content.link").isEmpty = (i.escaped "content.link").isEmpty :=
    (isEmpty_escape _).symm
  rw [inner, hempty]
  cases (i.escaped "content.link").isEmpty with
  | true => exact htitle
  | false =>
    exact ((((show Shows .text .value "<a href=\"" "<a href=\"" by decide).append_plain
      (by decide) (plain_escape _)).append (show Shows .value .text "\">" "\">" by decide)).append
        htitle).append (show Shows .text .text "</a>" "</a>" by decide)

theorem shows_markup : Shows .text .text (markup i)
    (skeleton (tagOf i) (!(i.text "content.link").isEmpty) (!i.styleAttribute.isEmpty)) := by
  -- Read piece by piece; each piece starts where the one in front of it ends.
  have hopen := (i.shows_opening (show Plain "widget-heading" by decide)).append
    (show Shows .tag .tag "><" "><" by decide)
  have hinner := ((hopen.append (shows_tagOf i)).append
    (show Shows .tag .text " class=\"heading-title\">" " class=\"\">" by decide)).append
      (shows_inner i)
  exact ((hinner.append (show Shows .text .tag "</" "</" by decide)).append
    (shows_tagOf i)).append (show Shows .tag .text "></div>" "></div>" by decide)

end Heading

/-! ### Buttons -/

namespace Button

variable (i : Instance)

/-- The class of the icon that is shown, empty if none is. -/
def iconClass : String :=
  if i.flag "icon.show_icon" then
    Text.trim ((((i.value? "icon.icon").bind (·.field? "value")).bind Json.str?).getD "")
  else ""

/-- The skeleton of a button. -/
def skeleton (iconic styled : Bool) : String :=
  "<div " ++ Instance.attributesSkeleton styled ++ "><a class=\"\" href=\"" ++ "\">" ++
    (if iconic then "<i class=\"\" aria-hidden=\"\"></i>" else "") ++
    "<span class=\"\">" ++ "</span></a></div>"

/-- An icon leaves its element. -/
theorem shows_iconMarkup (icon : Option Json) : Shows .text .text (iconMarkup icon)
    (if !(Text.trim (((icon.bind (·.field? "value")).bind Json.str?).getD "")).isEmpty then
      "<i class=\"\" aria-hidden=\"\"></i>" else "") := by
  rw [iconMarkup]
  cases (icon.bind (·.field? "value")).bind Json.str? with
  | none => decide
  | some s =>
    have hclass : Plain (escape (Text.trim s)) := plain_escape _
    change Shows .text .text (if (Text.trim s).isEmpty then "" else "<i class=\"" ++ _ ++ _)
      (if !(Text.trim s).isEmpty then _ else _)
    cases (Text.trim s).isEmpty with
    | true => exact (show Shows .text .text "" "" by decide)
    | false =>
      exact ((show Shows .text .value "<i class=\"" "<i class=\"" by decide).append_plain
        (by decide) hclass).append
          (show Shows .value .text "\" aria-hidden=\"true\"></i>" "\" aria-hidden=\"\"></i>"
            by decide)

/-- The icon of a button leaves its element, if there is one. -/
theorem shows_icon : Shows .text .text
    (if i.flag "icon.show_icon" then iconMarkup (i.value? "icon.icon") else "")
    (if !(iconClass i).isEmpty then "<i class=\"\" aria-hidden=\"\"></i>" else "") := by
  rw [iconClass]
  cases i.flag "icon.show_icon" with
  | true => exact shows_iconMarkup _
  | false => exact (show Shows .text .text "" "" by decide)

theorem shows_markup :
    Shows .text .text (markup i)
      (skeleton (!(iconClass i).isEmpty) (!i.styleAttribute.isEmpty)) := by
  have hopen := (i.shows_opening (show Plain "widget-button" by decide)).append
    (show Shows .tag .value "><a class=\"button\" href=\"" "><a class=\"\" href=\"" by decide)
  have hlink := (hopen.append_plain (by decide) (plain_escape (i.text "content.link"))).append
    (show Shows .value .text "\">" "\">" by decide)
  have hspan := (hlink.append (shows_icon i)).append
    (show Shows .text .text "<span class=\"button-text\">" "<span class=\"\">" by decide)
  exact (hspan.append_plain (by decide) (plain_escape (i.text "content.text"))).append
    (show Shows .text .text "</span></a></div>" "</span></a></div>" by decide)

end Button

/-! ### Spacers -/

namespace Spacer

variable (i : Instance)

/-- The skeleton of a spacer. -/
def skeleton (styled : Bool) : String :=
  "<div " ++ Instance.attributesSkeleton styled ++ "><div class=\"\"></div></div>"

theorem shows_markup : Shows .text .text (markup i) (skeleton (!i.styleAttribute.isEmpty)) :=
  (i.shows_opening (show Plain "widget-spacer" by decide)).append
    (show Shows .tag .text "><div class=\"spacer\"></div></div>" "><div class=\"\"></div></div>"
      by decide)

end Spacer

/-! ### No markup from settings -/

namespace Instance

/-- No delimiter and no name in a tag comes from the settings or the id of an
    instance. The skeleton of a markup has all of its delimiters, in their order;
    and that of a widget depends on which of six elements a heading is, and on
    whether the link of a heading, the icon of a button and the inline
    declarations are empty, but on none of the texts. In the attributes of an
    element there are no brackets, and no quotes but those of its id, its classes
    and its declarations, if the given class has none. -/
theorem skeleton_markup (i : Instance) :
    (∀ p s, (skeletonFrom p s).toList.filter isDelimiter = s.toList.filter isDelimiter) ∧
    (Heading.tagOf i ∈ Heading.tags.map Choice.value ∧
      ∃ text, (Heading.widget none).render i = .ok text ∧ skeleton text =
        Heading.skeleton (Heading.tagOf i) (!(i.text "content.link").isEmpty)
          (!i.styleAttribute.isEmpty)) ∧
    (∃ text, (Button.widget none).render i = .ok text ∧ skeleton text =
        Button.skeleton (!(Button.iconClass i).isEmpty) (!i.styleAttribute.isEmpty)) ∧
    (∃ text, Spacer.widget.render i = .ok text ∧ skeleton text =
        Spacer.skeleton (!i.styleAttribute.isEmpty)) ∧
    ∀ baseClass, Plain baseClass →
      skeletonFrom .tag (i.wrapperAttributes baseClass) =
        attributesSkeleton (!i.styleAttribute.isEmpty) ∧
      '<' ∉ (i.wrapperAttributes baseClass).toList ∧
      '>' ∉ (i.wrapperAttributes baseClass).toList := by
  refine ⟨filter_isDelimiter_skeletonFrom,
    ⟨Heading.tagOf_mem_tags i, _, rfl, (Heading.shows_markup i).skeletonFrom⟩,
    ⟨_, rfl, (Button.shows_markup i).skeletonFrom⟩,
    ⟨_, rfl, (Spacer.shows_markup i).skeletonFrom⟩, fun baseClass h => ?_⟩
  have hshows := (i.shows_wrapperAttributes h).skeletonFrom
  have hbrackets : ∀ styled, '<' ∉ (attributesSkeleton styled).toList ∧
      '>' ∉ (attributesSkeleton styled).toList := by decide
  obtain ⟨hopening, hclosing⟩ := hbrackets (!i.styleAttribute.isEmpty)
  rw [← hshows] at hopening hclosing
  exact ⟨hshows, fun hmem => hopening (mem_skeletonFrom rfl hmem),
    fun hmem => hclosing (mem_skeletonFrom rfl hmem)⟩

/-- A heading with an id, a title and a link that try to get out of their
    places. -/
def hostileOf (s : Schema) : Instance where
  id := "x\" onload=\"y"
  settings.general := ⟨.obj [("content", .obj [("link", .str "\"><script>"), ("tag", .str "h3"),
    ("title", .str "</h3><script>")])]⟩
  settings.style := .empty
  general := s
  style := .empty .style

/-- Of such a heading no script is left. -/
theorem hostileOf_skeleton : ∃ s, Schema.ofSteps .general Heading.generalSteps = .ok s ∧
    (∃ text, (Heading.widget none).render (hostileOf s) = .ok text ∧
      skeleton text = "<div id=\"\" class=\"\"><h3 class=\"\"><a href=\"\"></a></h3></div>") ∧
    Plain "card" ∧
    skeletonFrom .tag ((hostileOf s).wrapperAttributes "card") = "id=\"\" class=\"\"" ∧
    '<' ∉ ((hostileOf s).wrapperAttributes "card").toList := by
  obtain ⟨s, hs, hq⟩ := Schema.exists_of_any .general Heading.generalSteps (fun s =>
    Heading.tagOf (hostileOf s) = "h3" && !((hostileOf s).text "content.link").isEmpty &&
      (hostileOf s).styleAttribute.isEmpty) (by decide +kernel)
  simp only [Bool.and_eq_true, decide_eq_true_eq] at hq
  obtain ⟨⟨htag, hlink⟩, hstyle⟩ := hq
  obtain ⟨-, ⟨-, text, htext, hskeleton⟩, -, -, hattributes⟩ := (hostileOf s).skeleton_markup
  have hplain : Plain "card" := by decide
  obtain ⟨hcard, hopening, -⟩ := hattributes "card" hplain
  rw [htag, hlink, hstyle] at hskeleton
  rw [hstyle] at hcard
  exact ⟨s, hs, ⟨text, htext, hskeleton⟩, hplain, hcard, hopening⟩

end Instance

end ScopedStyle
