import ScopedStyle.Proofs.Settings.Storage
import ScopedStyle.Proofs.Style.Placeholders
import ScopedStyle.Proofs.Value.Acceptance

/-!
# Values that write their own declarations

A background and a typography value are objects of any shape, and each part of one
is left out, a text, a number or another object. Whatever is stored, the
declarations that they write are well formed (`Resolved.composite_wellFormed`):

* each property of a fixed list is declared at most once, in the order of the list,
  and no value is empty (`Declaration.Listed`);
* how an image is placed is declared only behind the image (`Background.Placed`);
* a typography value declares just the parts whose tokens are not empty, with these
  for values (`Typography.declarationOf?`).

A background under `hover` adds declarations for the pointer and changes none of the
others (`Background.declarations?_congr`). Where it cannot be used, the background is
what it is without.

A rule without a declaration of its own is written for a list of declarations that is
not empty, so its body is not empty either (`StyleRule.body_ne_empty_of_mem_composed`).
-/

namespace ScopedStyle

/-! ### Lists of declarations -/

namespace Declaration

/-- Declarations for some of the properties of a list, in its order, with values. -/
structure Listed (properties : List String) (ds : List Declaration) : Prop where
  /-- No property is declared twice. -/
  distinct : (ds.map property).Nodup
  /-- The order is that of the list. -/
  inOrder : List.Sublist (ds.map property) properties
  /-- No value is empty. -/
  value_ne_empty : ∀ d ∈ ds, d.value ≠ ""

variable {properties : List String} {ds : List Declaration}

/-- In a list without repetition the order is enough. -/
theorem listed_of_sublist (hproperties : properties.Nodup)
    (hds : List.Sublist (ds.map property) properties) (hvalue : ∀ d ∈ ds, d.value ≠ "") :
    Listed properties ds :=
  ⟨hproperties.sublist hds, hds, hvalue⟩

theorem listed_nil (properties : List String) : Listed properties [] :=
  ⟨List.nodup_nil, List.nil_sublist _, nofun⟩

/-- Declarations of which each comes of an item with a property of its own. -/
theorem listed_filterMap {α : Type} {items : List α} {declare : α → Option Declaration}
    {propertyOf : α → String} (hproperties : (items.map propertyOf).Nodup)
    (h : ∀ a d, declare a = some d → d.property = propertyOf a ∧ d.value ≠ "") :
    Listed (items.map propertyOf) (items.filterMap declare) := by
  refine listed_of_sublist hproperties ?_ fun d hd => ?_
  · clear hproperties
    induction items with
    | nil => exact .slnil
    | cons a items ih =>
      cases ha : declare a with
      | none => simpa [ha] using ih.cons (propertyOf a)
      | some d => simpa [ha, (h a d ha).1] using ih
  · obtain ⟨a, -, ha⟩ := List.mem_filterMap.1 hd
    exact (h a d ha).2

theorem listed_singleton {d : Declaration} (h : d.value ≠ "") : Listed [d.property] [d] :=
  ⟨List.nodup_singleton _, .refl _, by simpa using h⟩

/-- Two lists of declarations for different properties, one behind the other. -/
theorem Listed.append {properties' : List String} {ds' : List Declaration}
    (h : Listed properties ds) (h' : Listed properties' ds')
    (hproperties : (properties ++ properties').Nodup) :
    Listed (properties ++ properties') (ds ++ ds') := by
  refine listed_of_sublist hproperties ?_ fun d hd => ?_
  · rw [List.map_append]
    exact h.inOrder.append h'.inOrder
  · rcases List.mem_append.1 hd with hd | hd
    · exact h.value_ne_empty d hd
    · exact h'.value_ne_empty d hd

/-- The list may have more properties than are declared. -/
theorem Listed.mono {properties' : List String} (h : Listed properties ds)
    (hproperties : List.Sublist properties properties') : Listed properties' ds :=
  ⟨h.distinct, h.inOrder.trans hproperties, h.value_ne_empty⟩

/-- A declaration is written with its property in front. -/
theorem toText_ne_empty (d : Declaration) : d.toText ≠ "" := by
  simp [toText]

theorem joined_ne_empty (h : ds ≠ []) : joined ds ≠ "" := by
  obtain ⟨d, rest, rfl⟩ := List.exists_cons_of_ne_nil h
  have hfirst : d.toText.toList ≠ [] := by simpa using d.toText_ne_empty
  rw [joined, List.map_cons, Ne, ← String.toList_inj, String.toList_intercalate, List.map_cons]
  cases rest with
  | nil => simpa [List.intercalate] using hfirst
  | cons d' rest => simp [List.intercalate_cons_cons, hfirst]

end Declaration

/-- Declarations are put into rules only where there are some. -/
theorem StyleRule.body_ne_empty_of_mem_composed {ds : List Declaration} {selectors : List String}
    {rule : StyleRule} (h : rule ∈ composed ds selectors) : rule.body ≠ "" := by
  obtain ⟨selector, -, rfl⟩ := eq_of_mem_composed h
  refine Declaration.joined_ne_empty ?_
  rintro rfl
  exact absurd h List.not_mem_nil

open Declaration

/-! ### Backgrounds -/

namespace Background

variable {v : Json} {ds : List Declaration}

/-- The properties for the place of an image. -/
def placementProperties : List String :=
  placements.map (·.2)

/-- The properties of a background in the order in which they are declared. -/
def properties : List String :=
  ["background-color"] ++ (["background-image"] ++ placementProperties)

/-- In front of each declaration for the place of an image is one for the image. -/
def Placed (ds : List Declaration) : Prop :=
  ∀ before d after, ds = before ++ d :: after → d.property ∈ placementProperties →
    ∃ i ∈ before, i.property = "background-image"

/-- The declarations of a background as they are meant to be. -/
structure WellFormed (ds : List Declaration) : Prop where
  /-- They are some of those of a background. -/
  listed : Listed properties ds
  /-- No image is placed that is not declared. -/
  placed : Placed ds

theorem placed_of_forall (h : ∀ d ∈ ds, d.property ∉ placementProperties) : Placed ds := by
  rintro before d after rfl hd
  exact absurd hd (h d List.mem_append_cons_self)

theorem placed_imageAt_cons (url : String) (ds : List Declaration) :
    Placed (imageAt url :: ds) := by
  have himage : (imageAt url).property ∉ placementProperties := by
    change "background-image" ∉ placementProperties
    decide
  intro before d after hds hd
  cases before with
  | nil =>
    cases hds
    exact absurd hd himage
  | cons i before =>
    cases hds
    exact ⟨_, List.mem_cons_self, rfl⟩

/-- Other declarations may stand in front. -/
theorem Placed.append_left (h : Placed ds) {others : List Declaration}
    (hothers : ∀ d ∈ others, d.property ∉ placementProperties) : Placed (others ++ ds) := by
  induction others with
  | nil => exact h
  | cons other others ih =>
    obtain ⟨hother, hothers⟩ := List.forall_mem_cons.1 hothers
    intro before d after hds hd
    cases before with
    | nil =>
      obtain ⟨rfl, -⟩ := List.cons.inj hds
      exact absurd hd hother
    | cons first before =>
      obtain ⟨-, hrest⟩ := List.cons.inj hds
      obtain ⟨i, hi, himage⟩ := ih hothers before d after hrest hd
      exact ⟨i, List.mem_cons_of_mem _ hi, himage⟩

/-! #### One part after the other -/

theorem declaration?_eq_some {property key : String} {d : Declaration}
    (h : declaration? property v key = some d) : d.property = property ∧ d.value ≠ "" := by
  obtain ⟨text, htext, rfl⟩ := Option.map_eq_some_iff.1 h
  obtain ⟨j, -, hj⟩ := Option.bind_eq_some_iff.1 htext
  exact ⟨rfl, by simpa using (Option.filter_eq_some_iff.1 hj).2⟩

theorem quoteUrl_ne_empty (url : String) : quoteUrl url ≠ "" := by
  simp [quoteUrl, ← String.toList_inj]

theorem gradientText?_ne_empty {gradient? : Option Json} {text : String}
    (h : gradientText? gradient? = some text) : text ≠ "" := by
  rw [gradientText?.eq_def] at h
  split at h
  · rename_i s
    split at h
    · cases h
    · rename_i hs
      cases h
      simpa using hs
  · -- The text of an object begins with the name of a function.
    dsimp only at h
    split at h <;> cases h <;> simp [← String.toList_inj]
  · cases h

theorem listed_imageAt (url : String) : Listed ["background-image"] [imageAt url] :=
  listed_singleton (d := imageAt url) (quoteUrl_ne_empty url)

theorem listed_color (v : Json) :
    Listed ["background-color"] (declaration? "background-color" v "color").toList := by
  cases hcolor : declaration? "background-color" v "color" with
  | none => exact listed_nil _
  | some d =>
    obtain ⟨hproperty, hvalue⟩ := declaration?_eq_some hcolor
    rw [← hproperty]
    exact listed_singleton hvalue

theorem property_of_mem_color {d : Declaration}
    (h : d ∈ (declaration? "background-color" v "color").toList) :
    d.property ∉ placementProperties := by
  rw [(declaration?_eq_some (Option.mem_toList.1 h)).1]
  decide

theorem listed_placements (v : Json) : Listed placementProperties
    (placements.filterMap fun (key, property) => declaration? property v key) :=
  listed_filterMap (by decide) fun _ _ => declaration?_eq_some

theorem imageDeclarations_wellFormed (image? : Option Json) :
    Listed (["background-image"] ++ placementProperties) (imageDeclarations image?) ∧
      Placed (imageDeclarations image?) := by
  have himage (url : String) :
      Listed (["background-image"] ++ placementProperties) [imageAt url] ∧ Placed [imageAt url] :=
    ⟨(listed_imageAt url).mono (List.sublist_append_left _ _), placed_imageAt_cons url []⟩
  have hnil : Listed (["background-image"] ++ placementProperties) [] ∧ Placed [] :=
    ⟨listed_nil _, placed_of_forall nofun⟩
  rw [imageDeclarations.eq_def]
  split
  · split
    · exact hnil
    · exact himage _
  · split
    · exact ⟨(listed_imageAt _).append (listed_placements _) (by decide), placed_imageAt_cons _ _⟩
    · exact hnil
  · exact hnil

theorem wellFormed_of_declarations? (h : declarations? v = some ds) : WellFormed ds := by
  obtain ⟨shows, -, rfl⟩ := Option.map_eq_some_iff.1 h
  have hcolor := listed_color v
  cases shows with
  | nothing => exact ⟨listed_nil _, placed_of_forall nofun⟩
  | image =>
    obtain ⟨hlisted, hplaced⟩ := imageDeclarations_wellFormed (v.field? "image")
    exact ⟨hcolor.append hlisted (by decide), hplaced.append_left fun _ => property_of_mem_color⟩
  | gradient =>
    -- A gradient takes the place of the image, and nothing says how it is placed.
    have hgradient : Listed ["background-image"]
        ((gradientText? (v.field? "gradient")).map (⟨"background-image", ·⟩)).toList := by
      cases htext : gradientText? (v.field? "gradient") with
      | none => exact listed_nil _
      | some text =>
        exact listed_singleton (d := ⟨"background-image", text⟩) (gradientText?_ne_empty htext)
    refine ⟨(hcolor.append hgradient (by decide)).mono (by decide),
      (placed_of_forall ?_).append_left fun _ => property_of_mem_color⟩
    cases gradientText? (v.field? "gradient") <;> simp [placementProperties, placements]

/-! #### Hovering -/

/-- What can be used under `hover`: an object whose type there is. -/
def hoverFits (hover : Json) : Bool :=
  hover.obj?.isSome && typeFits (hover.field? "type")

/-- The declarations do not depend on what is stored under `hover`. -/
theorem declarations?_congr {w : Json} (h : ∀ key, key ≠ "hover" → v.field? key = w.field? key) :
    declarations? v = declarations? w := by
  simp only [declarations?, shows?, declaration?, textOf?, h "type" (by decide),
    h "gradient" (by decide), h "color" (by decide), h "image" (by decide)]

/-- What cannot be used under `hover` declares nothing. -/
theorem hoverDeclarations_eq_nil
    (h : ∀ hover, v.field? "hover" = some hover → hoverFits hover = false) :
    hoverDeclarations v = [] := by
  rw [hoverDeclarations]
  split
  · rename_i entries hentries
    have hnone : (declarations? (.obj entries)).isSome = false := by
      simpa [hoverFits, Json.obj?, declarations?, isSome_shows?] using h _ hentries
    rw [Option.isSome_eq_false_iff, Option.isNone_iff_eq_none] at hnone
    rw [hnone]
    rfl
  · rfl

theorem hoverDeclarations_wellFormed (v : Json) : WellFormed (hoverDeclarations v) := by
  have hnil : WellFormed [] := ⟨listed_nil _, placed_of_forall nofun⟩
  rw [hoverDeclarations]
  split
  · rename_i entries _
    cases h : declarations? (.obj entries) with
    | none => exact hnil
    | some ds => exact wellFormed_of_declarations? h
  · exact hnil

/-- An object has the same under all other keys with something under `hover`. -/
theorem field?_put_hover (entries : Dict Json) (hover : Json) {key : String} (h : key ≠ "hover") :
    (Json.obj (entries.put "hover" hover)).field? key = (Json.obj entries).field? key :=
  Dict.get?_put_of_ne entries h hover

theorem resolve?_put_hover {entries : Dict Json} (hentries : entries.get? "hover" = none)
    {hover : Json} (h : hoverFits hover = false) :
    resolve? (.obj (entries.put "hover" hover)) = resolve? (.obj entries) := by
  rw [resolve?, resolve?, declarations?_congr fun _ => field?_put_hover entries hover,
    hoverDeclarations_eq_nil, hoverDeclarations_eq_nil]
  · rw [Json.field?_obj, hentries]
    rintro _ ⟨⟩
  · rw [Json.field?_obj, Dict.get?_put_self]
    rintro _ ⟨⟩
    exact h

end Background

/-! ### Typography -/

namespace Typography

/-- The properties of a typography value in the order of the catalog. -/
def properties : List String :=
  parts.map Part.property

/-- The declaration of a part: its token for a value, unless that is empty. -/
def declarationOf? (t : Tokens) (part : Part) : Option Declaration :=
  ((t.get? part.token).filter (!·.isEmpty)).map (⟨part.property, ·⟩)

theorem listed_filterMap_declarationOf? (t : Tokens) :
    Listed properties (parts.filterMap (declarationOf? t)) := by
  refine listed_filterMap (by decide) fun part d hd => ?_
  obtain ⟨text, htext, rfl⟩ := Option.map_eq_some_iff.1 hd
  exact ⟨rfl, by simpa using (Option.filter_eq_some_iff.1 htext).2⟩

/-- A token that is not put in again keeps its text. -/
theorem get?_foldl_insert_of_not_mem {texts : List (Part × String)} {t : Tokens} {name : String}
    (h : ∀ e ∈ texts, e.1.token ≠ name) :
    (texts.foldl (fun t (part, text) => t.insert part.token text) t).get? name = t.get? name := by
  induction texts generalizing t with
  | nil => rfl
  | cons e texts ih =>
    obtain ⟨hfirst, hrest⟩ := List.forall_mem_cons.1 h
    rw [List.foldl_cons, ih hrest]
    exact Dict.get?_put_of_ne _ hfirst.symm _

/-- The tokens of different parts are their texts. -/
theorem get?_foldl_insert {texts : List (Part × String)} {t : Tokens} {part : Part} {text : String}
    (hdistinct : (texts.map fun e => e.1.token).Nodup) (h : (part, text) ∈ texts) :
    (texts.foldl (fun t (part, text) => t.insert part.token text) t).get? part.token =
      some text := by
  induction texts generalizing t with
  | nil => cases h
  | cons e texts ih =>
    obtain ⟨hfirst, hrest⟩ := List.nodup_cons.1 hdistinct
    rcases List.mem_cons.1 h with rfl | h
    · rw [List.foldl_cons, get?_foldl_insert_of_not_mem]
      · exact Dict.get?_put_self ..
      · exact fun e he heq => hfirst (List.mem_map.2 ⟨e, he, heq⟩)
    · exact ih hrest h

/-- A typography value declares the parts whose tokens are not empty. -/
theorem declarations_of_resolve? {v : Json} {r : Resolved} (h : resolve? v = some r) :
    r.declarations = parts.filterMap (declarationOf? r.tokens) := by
  obtain ⟨texts, htexts, rfl⟩ := resolve?_eq_some h
  have hparts : texts.map (·.1) = parts := map_fst_of_mapM htexts
  have hdistinct : (texts.map fun e => e.1.token).Nodup := by
    have hnodup : (parts.map Part.token).Nodup := by decide
    rwa [← hparts, List.map_map] at hnodup
  dsimp only
  rw [declarations, ← hparts, List.filterMap_map]
  refine List.filterMap_congr fun e he => ?_
  obtain ⟨part, text⟩ := e
  have htoken : (tokens texts).get? part.token = some text := get?_foldl_insert hdistinct he
  rw [Function.comp_apply, declarationOf?, htoken]
  cases htext : text.isEmpty <;> simp [Option.filter, htext]

end Typography

/-! ### Composite values -/

/-- Composite values write well-formed declarations, in each of their lists. What is
    stored under `hover` changes nothing but the list for the pointer, and nothing at
    all if it cannot be used. And no rule that is made of such a list is empty. -/
theorem Resolved.composite_wellFormed (v : Json) :
    (∀ r, Background.resolve? v = some r →
      Background.WellFormed r.declarations ∧ Background.WellFormed r.hover) ∧
    (∀ r, Typography.resolve? v = some r →
      Listed Typography.properties r.declarations ∧ r.hover = [] ∧
        (∀ part ∈ Typography.parts, (r.tokens.get? part.token).isSome = true) ∧
        r.declarations = Typography.parts.filterMap (Typography.declarationOf? r.tokens)) ∧
    (∀ entries hover, v = .obj entries → Dict.get? entries "hover" = none →
      (Background.resolve? (.obj (Dict.put entries "hover" hover))).map Resolved.declarations =
          (Background.resolve? v).map Resolved.declarations ∧
        (Background.hoverFits hover = false →
          Background.resolve? (.obj (Dict.put entries "hover" hover)) = Background.resolve? v)) ∧
    ∀ selectors r wrapper, ∀ rule ∈ (Rule.composed selectors).styleRules r wrapper,
      rule.body ≠ "" := by
  refine ⟨fun r hr => ?_, fun r hr => ?_, fun entries hover hv hentries => ?_,
    fun selectors r wrapper rule hrule => ?_⟩
  · obtain ⟨ds, hds, rfl⟩ := Background.resolve?_eq_some hr
    exact ⟨Background.wellFormed_of_declarations? hds, Background.hoverDeclarations_wellFormed v⟩
  · have hdeclarations := Typography.declarations_of_resolve? hr
    refine ⟨?_, ?_, fun part hpart => ?_, hdeclarations⟩
    · rw [hdeclarations]
      exact Typography.listed_filterMap_declarationOf? _
    · obtain ⟨_, -, rfl⟩ := Typography.resolve?_eq_some hr
      rfl
    · exact (Typography.knows_of_resolve? hr).2 (List.mem_map_of_mem hpart)
  · subst hv
    refine ⟨?_, Background.resolve?_put_hover hentries⟩
    rw [Background.resolve?, Background.resolve?,
      Background.declarations?_congr fun _ => Background.field?_put_hover entries hover,
      Option.map_map, Option.map_map]
    rfl
  · rcases List.mem_append.1 hrule with hrule | hrule
    · exact StyleRule.body_ne_empty_of_mem_composed hrule
    · exact StyleRule.body_ne_empty_of_mem_composed hrule

/-- A background with an image. -/
def cardBackground : Dict Json :=
  [("color", .str "#fff"), ("image", .obj [("size", .str "cover"), ("url", .str " a.png ")])]

/-- A typography value with a part that is left empty. -/
def cardFont : Json :=
  .obj [("font_family", .str "Inter"), ("font_size", .ofNat 16), ("line_height", .obj [])]

/-- A background under `hover` of a type that there is not. -/
def cardHover : Json :=
  .obj [("color", .str "#eee"), ("type", .str "video")]

/-- A background with a gradient, and an image under `hover`. -/
def shadedBackground : Json :=
  .obj [("color", .str "#111"),
    ("gradient", .obj [("end_color", .str "#fff"), ("start_color", .str "#000")]),
    ("hover", .obj [("color", .str "#eee"),
      ("image", .obj [("position", .str "top"), ("repeat", .str ""), ("url", .str "b.png")])])]

/-- The image is declared in front of its size, the empty part of the font not at all,
    and the unknown background under `hover` counts for nothing, while a known one
    has declarations of its own beside those of a gradient. -/
theorem Resolved.card_wellFormed :
    (∃ r, Background.resolve? (.obj cardBackground) = some r ∧
      r.declarations = [⟨"background-color", "#fff"⟩,
        ⟨"background-image", "url(\"a.png\")"⟩, ⟨"background-size", "cover"⟩] ∧
      Background.WellFormed r.declarations ∧ Background.WellFormed r.hover) ∧
    (∃ r, Background.resolve? shadedBackground = some r ∧
      r.declarations = [⟨"background-color", "#111"⟩,
        ⟨"background-image", "linear-gradient(180deg, #000 0%, #fff 100%)"⟩] ∧
      r.hover = [⟨"background-color", "#eee"⟩, ⟨"background-image", "url(\"b.png\")"⟩,
        ⟨"background-position", "top"⟩] ∧
      Background.WellFormed r.declarations ∧ Background.WellFormed r.hover) ∧
    (∃ r, Typography.resolve? cardFont = some r ∧
      r.declarations = [⟨"font-family", "Inter"⟩, ⟨"font-size", "16px"⟩] ∧
      Listed Typography.properties r.declarations ∧
      r.declarations = Typography.parts.filterMap (Typography.declarationOf? r.tokens)) ∧
    Background.hoverFits cardHover = false ∧
    Background.resolve? (.obj (Dict.put cardBackground "hover" cardHover)) =
      Background.resolve? (.obj cardBackground) := by
  obtain ⟨r, hr, hdeclared⟩ : ∃ r, Background.resolve? (.obj cardBackground) = some r ∧
      r.declarations = [⟨"background-color", "#fff"⟩,
        ⟨"background-image", "url(\"a.png\")"⟩, ⟨"background-size", "cover"⟩] :=
    ⟨_, rfl, by decide +kernel⟩
  obtain ⟨shaded, hshaded, hgradient, hover⟩ :
      ∃ r, Background.resolve? shadedBackground = some r ∧
        r.declarations = [⟨"background-color", "#111"⟩,
          ⟨"background-image", "linear-gradient(180deg, #000 0%, #fff 100%)"⟩] ∧
        r.hover = [⟨"background-color", "#eee"⟩, ⟨"background-image", "url(\"b.png\")"⟩,
          ⟨"background-position", "top"⟩] :=
    ⟨_, rfl, by decide +kernel, by decide +kernel⟩
  obtain ⟨font, hfont, hfamily⟩ : ∃ r, Typography.resolve? cardFont = some r ∧
      r.declarations = [⟨"font-family", "Inter"⟩, ⟨"font-size", "16px"⟩] :=
    ⟨_, rfl, by decide +kernel⟩
  have hunknown : Background.hoverFits cardHover = false := by decide
  obtain ⟨hbackground, -, hput, -⟩ := composite_wellFormed (.obj cardBackground)
  obtain ⟨htwo, -⟩ := composite_wellFormed shadedBackground
  obtain ⟨-, htypography, -⟩ := composite_wellFormed cardFont
  obtain ⟨hlisted, -, -, hexact⟩ := htypography font hfont
  exact ⟨⟨r, hr, hdeclared, hbackground r hr⟩,
    ⟨shaded, hshaded, hgradient, hover, htwo shaded hshaded⟩,
    ⟨font, hfont, hfamily, hlisted, hexact⟩, hunknown,
    (hput cardBackground cardHover rfl rfl).2 hunknown⟩

end ScopedStyle
