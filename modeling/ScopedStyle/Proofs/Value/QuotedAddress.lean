import ScopedStyle.Proofs.Value.Composite

/-!
# Addresses in quotes

The address of an image is put between `url("` and `")`, and nothing that is stored
for it can end the string before that (`Background.address_closed`). A reader of CSS
ends a string at the first quotation mark that no backslash takes with it
(`Background.readString`). Between two characters of an address it is never behind
such a backslash, because a backslash is written twice (`Background.Inside`), and
what would end the string or the line is written in percent notation.

So a reader finds the address itself, but for these few characters
(`Background.Shows`).
-/

namespace ScopedStyle.Background

/-! ### Reading -/

/-- What a reader takes for the inside of a string, from behind the mark that opens it,
    and what is behind the mark that ends it. A backslash takes the next character
    with it. -/
def readString : List Char → Option (List Char × List Char)
  | '"' :: cs => some ([], cs)
  | '\\' :: c :: cs => (readString cs).map fun (inside, rest) => ('\\' :: c :: inside, rest)
  | c :: cs => (readString cs).map fun (inside, rest) => (c :: inside, rest)
  | [] => none

/-- The inside of the string that a url begins with, and what is behind the string. -/
def readUrl? : List Char → Option (List Char × List Char)
  | 'u' :: 'r' :: 'l' :: '(' :: '"' :: cs => readString cs
  | _ => none

/-- Characters that end a line, and with it a string that is not closed. -/
def endsLine (c : Char) : Bool :=
  c = '\n' || c = '\x0d' || c = '\x0c'

/-- Two backslashes read as one. -/
def unescape : List Char → List Char
  | '\\' :: '\\' :: cs => '\\' :: unescape cs
  | c :: cs => c :: unescape cs
  | [] => []

/-- A character of an address, in percent notation where it would end a string. -/
def addressChar (c : Char) : List Char :=
  if c = '"' then ['%', '2', '2']
  else if c = '\n' then ['%', '0', 'A']
  else if c = '\x0d' then ['%', '0', 'D']
  else if c = '\x0c' then ['%', '0', 'C']
  else [c]

/-- A value shows an address: it is a string in `url(…)` on one line, which a reader ends
    just before the last bracket, whatever follows, and which reads as the address. -/
def Shows (value url : String) : Prop :=
  ∃ inside, value.toList = "url(\"".toList ++ inside ++ "\")".toList ∧
    (∀ rest, readUrl? (value.toList ++ rest) = some (inside, ')' :: rest)) ∧
    (∀ c ∈ inside, endsLine c = false) ∧
    unescape inside = url.toList.flatMap addressChar

/-! ### The inside of a string -/

/-- Texts behind which a reader is still inside the string, and not behind a
    backslash. -/
inductive Inside : List Char → Prop
  /-- Nothing is read. -/
  | nil : Inside []
  /-- A backslash with the character that it takes. -/
  | escaped {cs : List Char} (c : Char) (h : Inside cs) : Inside ('\\' :: c :: cs)
  /-- Another character. -/
  | plain {c : Char} {cs : List Char} (hslash : c ≠ '\\') (hmark : c ≠ '"') (h : Inside cs) :
      Inside (c :: cs)

variable {c d : Char} {cs ds rest : List Char}

theorem Inside.append (h : Inside cs) (h' : Inside ds) : Inside (cs ++ ds) := by
  induction h with
  | nil => exact h'
  | escaped c _ ih => exact ih.escaped c
  | plain hslash hmark _ ih => exact .plain hslash hmark ih

theorem readString_cons (hslash : c ≠ '\\') (hmark : c ≠ '"') (cs : List Char) :
    readString (c :: cs) = (readString cs).map fun (inside, rest) => (c :: inside, rest) := by
  -- Neither of the two marks is read, so only the third equation is left.
  conv_lhs => unfold readString
  split <;> simp_all

/-- The next quotation mark ends the string. -/
theorem Inside.readString_append (h : Inside cs) :
    readString (cs ++ '"' :: rest) = some (cs, rest) := by
  induction h with
  | nil => rfl
  | escaped c _ ih =>
    rw [List.cons_append, List.cons_append, readString, ih]
    rfl
  | plain hslash hmark _ ih =>
    rw [List.cons_append, readString_cons hslash hmark, ih]
    rfl

theorem unescape_cons (h : c ≠ '\\') (cs : List Char) : unescape (c :: cs) = c :: unescape cs := by
  conv_lhs => unfold unescape
  split <;> simp_all

theorem unescape_append (h : ∀ c ∈ ds, c ≠ '\\') (cs : List Char) :
    unescape (ds ++ cs) = ds ++ unescape cs := by
  induction ds with
  | nil => rfl
  | cons d ds ih =>
    obtain ⟨hfirst, hrest⟩ := List.forall_mem_cons.1 h
    rw [List.cons_append, unescape_cons hfirst, ih hrest, List.cons_append]

/-! ### Quoting -/

/-- Percent notation apart, only a backslash is not written as it is. -/
theorem quoteChar_eq (c : Char) :
    quoteChar c = if c = '\\' then ['\\', '\\'] else addressChar c := rfl

/-- In percent notation a character has neither a mark nor the end of a line in it, and
    no backslash that it is not itself. -/
theorem of_mem_addressChar (h : d ∈ addressChar c) :
    d ≠ '"' ∧ endsLine d = false ∧ (d = '\\' → c = '\\') := by
  rw [addressChar] at h
  split_ifs at h with hmark hfeed hreturn hform
  case neg =>
    obtain rfl := List.mem_singleton.1 h
    exact ⟨hmark, by simp [endsLine, hfeed, hreturn, hform], id⟩
  all_goals
    simp only [List.mem_cons, List.not_mem_nil, or_false] at h
    rcases h with rfl | rfl | rfl <;>
      exact ⟨by decide, by decide, fun hd => absurd hd (by decide)⟩

theorem ne_slash_of_mem_addressChar (hc : c ≠ '\\') (h : d ∈ addressChar c) : d ≠ '\\' :=
  fun hd => hc ((of_mem_addressChar h).2.2 hd)

theorem inside_of_forall (h : ∀ c ∈ cs, c ≠ '\\' ∧ c ≠ '"') : Inside cs := by
  induction cs with
  | nil => exact .nil
  | cons c cs ih =>
    obtain ⟨⟨hslash, hmark⟩, hrest⟩ := List.forall_mem_cons.1 h
    exact .plain hslash hmark (ih hrest)

theorem inside_quoteChar (c : Char) : Inside (quoteChar c) := by
  rw [quoteChar_eq]
  split
  · exact .escaped '\\' .nil
  · rename_i hc
    exact inside_of_forall fun d hd =>
      ⟨ne_slash_of_mem_addressChar hc hd, (of_mem_addressChar hd).1⟩

theorem endsLine_of_mem_quoteChar (h : d ∈ quoteChar c) : endsLine d = false := by
  rw [quoteChar_eq] at h
  split at h
  · have hd : d = '\\' := by simpa using h
    rw [hd]
    rfl
  · exact (of_mem_addressChar h).2.1

theorem unescape_quoteChar_append (c : Char) (cs : List Char) :
    unescape (quoteChar c ++ cs) = addressChar c ++ unescape cs := by
  rw [quoteChar_eq]
  split
  · rename_i hc
    rw [hc]
    rfl
  · rename_i hc
    exact unescape_append (fun d hd => ne_slash_of_mem_addressChar hc hd) cs

/-- Behind any part of an address the reader is still inside the string. -/
theorem inside_quote (cs : List Char) : Inside (cs.flatMap quoteChar) := by
  induction cs with
  | nil => exact .nil
  | cons c cs ih =>
    rw [List.flatMap_cons]
    exact (inside_quoteChar c).append ih

theorem unescape_quote (cs : List Char) :
    unescape (cs.flatMap quoteChar) = cs.flatMap addressChar := by
  induction cs with
  | nil => rfl
  | cons c cs ih => rw [List.flatMap_cons, List.flatMap_cons, unescape_quoteChar_append, ih]

theorem shows_quoteUrl (url : String) : Shows (quoteUrl url) url := by
  have htext : (quoteUrl url).toList =
      "url(\"".toList ++ url.toList.flatMap quoteChar ++ "\")".toList := by
    simp [quoteUrl]
  refine ⟨url.toList.flatMap quoteChar, htext, fun rest => ?_, fun c hc => ?_,
    unescape_quote url.toList⟩
  · rw [htext, List.append_assoc, List.append_assoc]
    exact (inside_quote url.toList).readString_append
  · obtain ⟨_, -, hc⟩ := List.mem_flatMap.1 hc
    exact endsLine_of_mem_quoteChar hc

/-! ### Images -/

/-- The address of an image. -/
def address? : Option Json → Option String
  | some (.str s) => if (Text.trim s).isEmpty then none else some (Text.trim s)
  | some (.obj entries) => textOf? (.obj entries) "url"
  | _ => none

/-- The image among the declarations is the one at the address. -/
theorem eq_imageAt_of_mem {image? : Option Json} {d : Declaration}
    (h : d ∈ imageDeclarations image?) (himage : d.property = "background-image") :
    ∃ url, address? image? = some url ∧ d = imageAt url := by
  rw [imageDeclarations.eq_def] at h
  rw [address?.eq_def]
  split at h
  · split at h
    · cases h
    · rename_i hs
      exact ⟨_, if_neg hs, List.mem_singleton.1 h⟩
  · split at h
    · rename_i url hurl
      rcases List.mem_cons.1 h with h | h
      · exact ⟨url, hurl, h⟩
      · -- The other declarations are for the place of the image.
        have hplaced : d.property ∈ placementProperties :=
          (listed_placements _).inOrder.subset (List.mem_map_of_mem h)
        rw [himage] at hplaced
        exact absurd hplaced (by decide)
    · cases h
  · cases h

/-- Where a background shows an image, each value that is declared for it shows the
    address that is stored. -/
def ImagesShown (v : Json) (ds : List Declaration) : Prop :=
  shows? v = some .image → ∀ d ∈ ds, d.property = "background-image" →
    ∃ url, address? (v.field? "image") = some url ∧ Shows d.value url

theorem imagesShown_nil (v : Json) : ImagesShown v [] :=
  fun _ _ hd => absurd hd List.not_mem_nil

theorem imagesShown_of_declarations? {v : Json} {ds : List Declaration}
    (h : declarations? v = some ds) : ImagesShown v ds := by
  intro hshows d hd himage
  rw [declarations?, hshows] at h
  cases h
  rcases List.mem_append.1 hd with hd | hd
  · rw [(declaration?_eq_some (Option.mem_toList.1 hd)).1] at himage
    exact absurd himage (by decide)
  · obtain ⟨url, hurl, rfl⟩ := eq_imageAt_of_mem hd himage
    exact ⟨url, hurl, shows_quoteUrl url⟩

/-- No address can leave its quotes, neither by itself nor as that of an image in a
    background or in the one under its `hover`. -/
theorem address_closed :
    (∀ url, Shows (quoteUrl url) url) ∧
    ∀ v r, resolve? v = some r → ImagesShown v r.declarations ∧
      ∀ hover, v.field? "hover" = some hover → ImagesShown hover r.hover := by
  refine ⟨shows_quoteUrl, fun v r hr => ?_⟩
  obtain ⟨ds, hds, rfl⟩ := resolve?_eq_some hr
  refine ⟨imagesShown_of_declarations? hds, fun hover hhover => ?_⟩
  dsimp only
  rw [hoverDeclarations, hhover]
  cases hover with
  | obj entries =>
    change ImagesShown (.obj entries) ((declarations? (.obj entries)).getD [])
    cases h : declarations? (.obj entries) with
    | none => exact imagesShown_nil _
    | some ds => exact imagesShown_of_declarations? h
  | _ => exact imagesShown_nil _

/-- A background with an address that looks like the end of its string. -/
def hostileBackground : Json :=
  .obj [("image", .str "\\\"); x: y\n\\")]

/-- A backslash in front of a mark does not shield it, and one at the end does not take
    the last mark with it. -/
theorem hostile_address_closed :
    ∃ r, resolve? hostileBackground = some r ∧
      r.declarations = [⟨"background-image", "url(\"\\\\%22); x: y%0A\\\\\")"⟩] ∧
      shows? hostileBackground = some .image ∧
      Shows "url(\"\\\\%22); x: y%0A\\\\\")" "\\\"); x: y\n\\" := by
  obtain ⟨r, hr, hdeclared, hshows, haddress⟩ : ∃ r, resolve? hostileBackground = some r ∧
      r.declarations = [⟨"background-image", "url(\"\\\\%22); x: y%0A\\\\\")"⟩] ∧
      shows? hostileBackground = some .image ∧
      address? (hostileBackground.field? "image") = some "\\\"); x: y\n\\" :=
    ⟨_, rfl, by decide +kernel, by decide +kernel, by decide +kernel⟩
  obtain ⟨url, hurl, hshown⟩ := (address_closed.2 _ r hr).1 hshows
    ⟨"background-image", "url(\"\\\\%22); x: y%0A\\\\\")"⟩ (by rw [hdeclared]; exact .head _) rfl
  cases haddress.symm.trans hurl
  exact ⟨r, hr, hdeclared, hshows, hshown⟩

end ScopedStyle.Background
