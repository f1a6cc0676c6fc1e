import OddJob.TypeNames

/-! Assembly-qualified type names, with generic arguments nested to any depth, and what
`UnversionedTypeSerializer` and `TargetPlatformHelpers` make of them. -/

namespace OddJob

open TargetPlatformHelpers

/-- The symbols that type names use for their own structure, and the one of the marker. -/
def isReserved (symbol : Char) : Bool :=
  symbol ∈ ",[]&*\\%".toList

/-- `Namespace.Outer+Inner`, with the number of generic parameters where there are any. -/
structure TypePath where
  text : List Char
  plain : ∀ symbol ∈ text, isReserved symbol = false

/-- A comma or an equals sign in the name of an assembly follows a backslash. -/
def isEscaped : List Char → Bool
  | [] => true
  | '\\' :: _ :: rest => isEscaped rest
  | ['\\'] => false
  | symbol :: rest => symbol != ',' && symbol != '=' && isEscaped rest

/-- The name of an assembly as its references display it. -/
structure AssemblyName where
  text : List Char
  nonempty : text ≠ []
  escaped : isEscaped text = true
  unmarked : '%' ∉ text

/-- The `", Version=.., Culture=.., PublicKeyToken=.."` of an assembly reference. -/
structure VersionPart where
  version : List Char
  culture : List Char
  publicKeyToken : List Char
  version_solid : ∀ symbol ∈ version, isSpace symbol = false
  culture_solid : ∀ symbol ∈ culture, isSpace symbol = false
  token : ∀ symbol ∈ publicKeyToken, isTokenSymbol symbol = true

def versionKey : List Char := "Version=".toList

def cultureKey : List Char := "Culture".toList

def publicKeyTokenKey : List Char := "PublicKeyToken=".toList

def VersionPart.text (part : VersionPart) : List Char :=
  [',', ' '] ++ versionKey ++ part.version ++ [',', ' '] ++ cultureKey ++ ['='] ++ part.culture ++
    [',', ' '] ++ publicKeyTokenKey ++ part.publicKeyToken

/-- What may follow the version part, as in `", Retargetable=Yes"`. -/
structure FurtherParts where
  text : List Char
  separated : ∀ symbol ∈ text.head?, symbol = ','
  versionless : ¬ versionKey <:+: text
  unmarked : '%' ∉ text

structure AssemblyReference where
  name : AssemblyName
  versionPart : VersionPart
  further : FurtherParts

/-- The reference with its version part, or without it. -/
def AssemblyReference.text (versioned : Bool) (assembly : AssemblyReference) : List Char :=
  assembly.name.text ++ (if versioned then assembly.versionPart.text else []) ++
    assembly.further.text

inductive TypeSuffix where
  | array (furtherDimensions : Nat)
  | generalArray
  | pointer
  | reference

def TypeSuffix.text : TypeSuffix → List Char
  | array furtherDimensions => '[' :: (List.replicate furtherDimensions ',' ++ [']'])
  | generalArray => ['[', '*', ']']
  | pointer => ['*']
  | reference => ['&']

inductive QualifiedName where
  | mk (path : TypePath) (arguments : List QualifiedName) (suffixes : List TypeSuffix)
    (assembly : AssemblyReference)

/-- `"[[..],[..]]"` -/
def bracketed : List (List Char) → List Char
  | [] => []
  | first :: rest =>
    "[[".toList ++ (first ++ [']']) ++ rest.flatMap (fun text => ",[".toList ++ (text ++ [']'])) ++
      [']']

mutual

/-- The name with the version parts of all its references, or with none. -/
def QualifiedName.text (versioned : Bool) : QualifiedName → List Char
  | .mk path arguments suffixes assembly =>
    path.text ++ bracketed (argumentTexts versioned arguments) ++
      suffixes.flatMap TypeSuffix.text ++ ", ".toList ++ assembly.text versioned

def argumentTexts (versioned : Bool) : List QualifiedName → List (List Char)
  | [] => []
  | first :: rest => first.text versioned :: argumentTexts versioned rest

end

theorem argumentTexts_eq (versioned : Bool) (arguments : List QualifiedName) :
    argumentTexts versioned arguments = arguments.map (QualifiedName.text versioned) := by
  induction arguments with
  | nil => rfl
  | cons first rest ih => rw [argumentTexts, ih, List.map_cons]

@[elab_as_elim, induction_eliminator]
theorem QualifiedName.induct {motive : QualifiedName → Prop}
    (mk : ∀ path arguments suffixes assembly, (∀ argument ∈ arguments, motive argument) →
      motive (.mk path arguments suffixes assembly)) (name : QualifiedName) : motive name := by
  refine @QualifiedName.rec motive (fun arguments => ∀ argument ∈ arguments, motive argument)
    mk ?_ ?_ name
  · exact fun argument member => absurd member List.not_mem_nil
  · intro first rest holds later argument member
    rcases List.mem_cons.mp member with rfl | older
    · exact holds
    · exact later argument older

private theorem dropWord_append (word rest : List Char) : dropWord word (word ++ rest) = some rest := by
  induction word with
  | nil => rfl
  | cons symbol word ih => simpa [dropWord] using ih

private theorem prefix_of_dropWord {word text rest : List Char}
    (dropped : dropWord word text = some rest) : word <+: text := by
  induction word generalizing text with
  | nil => exact List.nil_prefix
  | cons expected word ih =>
    cases text with
    | nil => cases dropped
    | cons symbol text =>
      rw [dropWord] at dropped
      split at dropped
      · rename_i same
        subst same
        exact List.cons_prefix_cons.mpr ⟨rfl, ih dropped⟩
      · cases dropped

private theorem matchAssembly_comma (text : List Char) :
    matchAssembly (',' :: text) =
      (dropWord versionKey (text.dropWhile isSpace)).bind fun version =>
        (dropSpace (version.dropWhile (!isSpace ·))).bind fun text =>
          (dropWord cultureKey text).bind fun culture =>
            (dropSpace (culture.dropWhile (!isSpace ·))).bind fun text =>
              if (culture.takeWhile (!isSpace ·)).getLast? = some ',' then
                (dropWord publicKeyTokenKey text).bind fun token =>
                  some (token.dropWhile isTokenSymbol)
              else none :=
  rfl

/-- A match starts at a comma that has the word behind it. -/
theorem matchAssembly_eq_none {symbol : Char} {text : List Char}
    (elsewhere : symbol = ',' → ¬ versionKey <+: text.dropWhile isSpace) :
    matchAssembly (symbol :: text) = none := by
  by_cases comma : symbol = ','
  · subst comma
    have missing : dropWord versionKey (text.dropWhile isSpace) = none := by
      rw [Option.eq_none_iff_forall_not_mem]
      exact fun rest dropped => elsewhere rfl (prefix_of_dropWord dropped)
    rw [matchAssembly_comma, missing]
    rfl
  · simp only [matchAssembly, dropWord, comma, ↓reduceIte]
    rfl

private theorem takeWhile_stop {accepts : Char → Bool} {front rest : List Char}
    (inside : ∀ symbol ∈ front, accepts symbol = true)
    (ended : ∀ symbol ∈ rest.head?, accepts symbol = false) :
    (front ++ rest).takeWhile accepts = front ∧ (front ++ rest).dropWhile accepts = rest := by
  have none : rest.takeWhile accepts = [] ∧ rest.dropWhile accepts = rest := by
    cases rest with
    | nil => exact ⟨rfl, rfl⟩
    | cons symbol rest =>
      have outside := ended symbol rfl
      simp [outside]
  rw [List.takeWhile_append_of_pos inside, List.dropWhile_append_of_pos inside, none.1, none.2,
    List.append_nil]
  exact ⟨rfl, rfl⟩

private theorem dropSpace_run {front rest : List Char}
    (solid : ∀ symbol ∈ front, isSpace symbol = false) :
    (front ++ ' ' :: rest).takeWhile (!isSpace ·) = front ∧
      dropSpace ((front ++ ' ' :: rest).dropWhile (!isSpace ·)) = some rest := by
  obtain ⟨taken, left⟩ := @takeWhile_stop (!isSpace ·) front (' ' :: rest)
    (fun symbol member => by rw [solid symbol member]; rfl)
    (fun symbol same => by rw [← Option.mem_some_iff.mp same]; decide)
  refine ⟨taken, ?_⟩
  rw [left]
  rfl

private theorem matchAssembly_eq_some {text version culture token : List Char}
    (spaced : text.dropWhile isSpace = versionKey ++ version)
    (versionDone : dropSpace (version.dropWhile (!isSpace ·)) = some (cultureKey ++ culture))
    (last : (culture.takeWhile (!isSpace ·)).getLast? = some ',')
    (cultureDone : dropSpace (culture.dropWhile (!isSpace ·)) =
      some (publicKeyTokenKey ++ token)) :
    matchAssembly (',' :: text) = some (token.dropWhile isTokenSymbol) := by
  rw [matchAssembly_comma, spaced, dropWord_append]
  simp only [Option.bind_some, versionDone, dropWord_append, cultureDone, last, ↓reduceIte]

private theorem mem_concat_solid {text : List Char} (solid : ∀ symbol ∈ text, isSpace symbol = false) :
    ∀ symbol ∈ text ++ [','], isSpace symbol = false := by
  intro symbol member
  rcases List.mem_append.mp member with inner | last
  · exact solid symbol inner
  · rw [List.mem_singleton.mp last]
    decide

theorem matchAssembly_versionPart (part : VersionPart) {rest : List Char}
    (ended : ∀ symbol ∈ rest.head?, isTokenSymbol symbol = false) :
    matchAssembly (part.text ++ rest) = some rest := by
  obtain ⟨token, tokenIs⟩ : ∃ token, token = part.publicKeyToken ++ rest := ⟨_, rfl⟩
  obtain ⟨culture, cultureIs⟩ : ∃ culture,
      culture = (['='] ++ part.culture ++ [',']) ++ ' ' :: (publicKeyTokenKey ++ token) :=
    ⟨_, rfl⟩
  obtain ⟨version, versionIs⟩ : ∃ version,
      version = (part.version ++ [',']) ++ ' ' :: (cultureKey ++ culture) := ⟨_, rfl⟩
  have laidOut : part.text ++ rest = ',' :: (' ' :: (versionKey ++ version)) := by
    simp [VersionPart.text, versionIs, cultureIs, tokenIs]
  have spaced : (' ' :: (versionKey ++ version)).dropWhile isSpace =
      versionKey ++ version := by
    unfold versionKey
    simp [isSpace]
  have equals : ∀ symbol ∈ ['='] ++ part.culture, isSpace symbol = false := by
    intro symbol member
    rcases List.mem_cons.mp member with rfl | inner
    · decide
    · exact part.culture_solid symbol inner
  have versionDone : dropSpace (version.dropWhile (!isSpace ·)) = some (cultureKey ++ culture) := by
    rw [versionIs]
    exact (dropSpace_run (mem_concat_solid part.version_solid)).2
  obtain ⟨taken, cultureDone⟩ := @dropSpace_run _ (publicKeyTokenKey ++ token)
    (mem_concat_solid equals)
  rw [← cultureIs] at taken cultureDone
  have last : (culture.takeWhile (!isSpace ·)).getLast? = some ',' := by
    rw [taken]
    exact List.getLast?_concat
  rw [laidOut, matchAssembly_eq_some spaced versionDone last cultureDone, tokenIs,
    (takeWhile_stop part.token ended).2]

private theorem removeVersionsFrom_drop (skip : Nat) (text : List Char) :
    removeVersionsFrom skip text = removeVersions (text.drop skip) := by
  induction text generalizing skip with
  | nil => simp [removeVersions, removeVersionsFrom]
  | cons symbol rest ih =>
    cases skip with
    | zero => rfl
    | succ skip => simpa [removeVersionsFrom] using ih skip

theorem removeVersions_cons {symbol : Char} {rest : List Char}
    (passed : matchAssembly (symbol :: rest) = none) :
    removeVersions (symbol :: rest) = symbol :: removeVersions rest := by
  rw [removeVersions, removeVersionsFrom, passed]
  rfl

theorem removeVersions_of_match {part rest : List Char} (nonempty : part ≠ [])
    (found : matchAssembly (part ++ rest) = some rest) :
    removeVersions (part ++ rest) = removeVersions rest := by
  cases part with
  | nil => exact absurd rfl nonempty
  | cons symbol part =>
    have skipped : (part ++ rest).length - rest.length = part.length := by simp
    rw [List.cons_append] at found ⊢
    rw [removeVersions, removeVersionsFrom, found]
    simp only [skipped]
    rw [removeVersionsFrom_drop, List.drop_left]

private theorem infix_of_prefix_dropWhile {text rest : List Char}
    (fenced : ∀ symbol ∈ rest.head?, symbol = ',' ∨ symbol = ']')
    (begins : versionKey <+: (text ++ rest).dropWhile isSpace) : versionKey <:+: text := by
  have keyless : ',' ∉ versionKey ∧ ']' ∉ versionKey := by decide
  have unfenced : ∀ symbol ∈ rest.head?, symbol ∉ versionKey ∧ isSpace symbol = false := by
    intro symbol first
    rcases fenced symbol first with rfl | rfl
    · exact ⟨keyless.1, by decide⟩
    · exact ⟨keyless.2, by decide⟩
  have stopped : (text ++ rest).dropWhile isSpace = text.dropWhile isSpace ++ rest := by
    rw [List.dropWhile_append]
    split
    · rename_i blank
      rw [List.isEmpty_iff.mp blank, List.nil_append]
      cases rest with
      | nil => rfl
      | cons symbol rest =>
        have solid := (unfenced symbol rfl).2
        simp [solid]
    · rfl
  rw [stopped] at begins
  rcases List.prefix_or_prefix_of_prefix begins (List.prefix_append _ rest) with inside | beyond
  · exact inside.isInfix.trans (List.dropWhile_suffix _).isInfix
  · obtain ⟨left, whole⟩ := beyond
    rw [← whole, List.prefix_append_right_inj] at begins
    cases left with
    | nil =>
      rw [List.append_nil] at whole
      exact whole ▸ (List.dropWhile_suffix _).isInfix
    | cons symbol left =>
      cases rest with
      | nil => cases List.prefix_nil.mp begins
      | cons first rest =>
        obtain ⟨same, -⟩ := List.cons_prefix_cons.mp begins
        have member : symbol ∈ versionKey := by
          rw [← whole]
          exact List.mem_append_right _ List.mem_cons_self
        exact absurd (same ▸ member) (unfenced first rfl).1

/-- The text in front of a comma or of a bracket that closes is passed over where the word
that starts a version part is not in it. -/
theorem removeVersions_append {text rest : List Char} (versionless : ¬ versionKey <:+: text)
    (fenced : ∀ symbol ∈ rest.head?, symbol = ',' ∨ symbol = ']') :
    removeVersions (text ++ rest) = text ++ removeVersions rest := by
  induction text with
  | nil => rfl
  | cons symbol text ih =>
    have later : ¬ versionKey <:+: text := fun occurs =>
      versionless (occurs.trans (List.suffix_cons _ _).isInfix)
    rw [List.cons_append, removeVersions_cons, ih later, List.cons_append]
    apply matchAssembly_eq_none
    rintro - begins
    exact later (infix_of_prefix_dropWhile fenced begins)

theorem removeVersions_append_of_plain {text : List Char} (plain : ',' ∉ text) (rest : List Char) :
    removeVersions (text ++ rest) = text ++ removeVersions rest := by
  induction text with
  | nil => rfl
  | cons symbol text ih =>
    have different : symbol ≠ ',' := fun same => plain (same ▸ List.mem_cons_self)
    rw [List.cons_append, removeVersions_cons (matchAssembly_eq_none (absurd · different)),
      ih (fun member => plain (List.mem_cons_of_mem _ member)), List.cons_append]

theorem versionless_of_isEscaped {text : List Char} (escaped : isEscaped text = true) :
    ¬ versionKey <:+: text := by
  have key : ['n', '='] <:+: versionKey := by decide
  intro occurs
  replace occurs := key.trans occurs
  have unescaped (rest : List Char) (shape : ['='] <+: rest) : isEscaped rest = false := by
    obtain ⟨tail, rfl⟩ := shape
    rfl
  fun_induction isEscaped text with
  | case1 => cases List.infix_nil.mp occurs
  | case2 symbol rest ih =>
    rcases List.infix_cons_iff.mp occurs with start | inner
    · cases (List.cons_prefix_cons.mp start).1
    rcases List.infix_cons_iff.mp inner with start | inner
    · rw [unescaped rest (List.cons_prefix_cons.mp start).2] at escaped
      cases escaped
    · exact ih escaped inner
  | case3 => cases escaped
  | case4 symbol rest _ _ ih =>
    obtain ⟨-, escaped⟩ := Bool.and_eq_true_iff.mp escaped
    rcases List.infix_cons_iff.mp occurs with start | inner
    · rw [unescaped rest (List.cons_prefix_cons.mp start).2] at escaped
      cases escaped
    · exact ih escaped inner

/-- The scan makes one text of the other, and goes on behind it. -/
def Unversions (whole bare : List Char) : Prop :=
  ∀ rest, removeVersions (whole ++ rest) = bare ++ removeVersions rest

namespace Unversions

variable {whole bare whole' bare' : List Char}

theorem append (front : Unversions whole bare) (back : Unversions whole' bare') :
    Unversions (whole ++ whole') (bare ++ bare') := by
  intro rest
  rw [List.append_assoc, front, back, List.append_assoc]

theorem of_plain {text : List Char} (plain : ',' ∉ text) : Unversions text text :=
  removeVersions_append_of_plain plain

theorem separator : Unversions ",[".toList ",[".toList := by
  intro rest
  have passed : matchAssembly (',' :: ('[' :: rest)) = none := by
    apply matchAssembly_eq_none
    rintro - begins
    have first := List.cons_prefix_cons.mp (begins : 'V' :: "ersion=".toList <+: '[' :: rest)
    cases first.1
  exact (removeVersions_cons passed).trans
    (congrArg (',' :: ·) (of_plain (by decide : ',' ∉ ['[']) rest))

theorem suffix (suffix : TypeSuffix) : Unversions suffix.text suffix.text := by
  cases suffix with
  | array furtherDimensions =>
    intro rest
    have versionless : ¬ versionKey <:+: '[' :: List.replicate furtherDimensions ',' := by
      intro occurs
      have member := occurs.subset (by decide : 'V' ∈ versionKey)
      rcases List.mem_cons.mp member with same | inner
      · cases same
      · cases List.eq_of_mem_replicate inner
    have closed := removeVersions_append versionless
      (fun symbol same => .inr (Option.some.inj same).symm : ∀ symbol ∈ (']' :: rest).head?,
        symbol = ',' ∨ symbol = ']')
    have bracket := of_plain (by decide : ',' ∉ [']']) rest
    simp only [TypeSuffix.text, List.cons_append, List.append_assoc, List.nil_append] at closed bracket ⊢
    rw [closed, bracket]
  | generalArray => exact of_plain (by decide)
  | pointer => exact of_plain (by decide)
  | reference => exact of_plain (by decide)

theorem flatMap {Piece : Type} {text text' : Piece → List Char} {pieces : List Piece}
    (each : ∀ piece ∈ pieces, Unversions (text piece) (text' piece)) :
    Unversions (pieces.flatMap text) (pieces.flatMap text') := by
  induction pieces with
  | nil => exact fun _ => rfl
  | cons first rest ih =>
    exact (each first List.mem_cons_self).append
      (ih fun piece member => each piece (List.mem_cons_of_mem _ member))

theorem bracketed {arguments : List QualifiedName}
    (each : ∀ argument ∈ arguments,
      Unversions (argument.text true ++ [']']) (argument.text false ++ [']'])) :
    Unversions (bracketed (arguments.map (QualifiedName.text true)))
      (bracketed (arguments.map (QualifiedName.text false))) := by
  cases arguments with
  | nil => exact fun _ => rfl
  | cons first rest =>
    simp only [List.map_cons, OddJob.bracketed, List.flatMap_map]
    have further := @Unversions.flatMap _ (fun argument : QualifiedName =>
        ",[".toList ++ (argument.text true ++ [']'])) (fun argument =>
        ",[".toList ++ (argument.text false ++ [']'])) rest
      fun argument member => separator.append (each argument (List.mem_cons_of_mem _ member))
    exact (((of_plain (by decide)).append (each first List.mem_cons_self)).append further).append
      (of_plain (by decide))

end Unversions

/-- A bracket closes or the text ends: the version part of a reference ends there as well. -/
def Closes (rest : List Char) : Prop :=
  ∀ symbol ∈ rest.head?, symbol = ']'

private theorem removeVersions_reference (assembly : AssemblyReference) {front rest : List Char}
    (versionless : ¬ versionKey <:+: front ++ assembly.name.text) (closes : Closes rest) :
    removeVersions (front ++ (assembly.text true ++ rest)) =
      front ++ (assembly.text false ++ removeVersions rest) := by
  obtain ⟨name, part, further⟩ := assembly
  have fenced : ∀ symbol ∈ (part.text ++ (further.text ++ rest)).head?,
      symbol = ',' ∨ symbol = ']' :=
    fun symbol same => .inl (Option.some.inj same).symm
  have ended : ∀ symbol ∈ (further.text ++ rest).head?, isTokenSymbol symbol = false := by
    intro symbol first
    rw [List.head?_append, Option.mem_def, Option.or_eq_some_iff] at first
    rcases first with inner | ⟨-, outer⟩
    · rw [further.separated symbol inner]
      decide
    · rw [closes symbol outer]
      decide
  have nonempty : part.text ≠ [] := List.cons_ne_nil _ _
  have passed := removeVersions_append versionless fenced
  rw [removeVersions_of_match nonempty (matchAssembly_versionPart part ended),
    removeVersions_append further.versionless fun symbol first => .inr (closes symbol first)]
    at passed
  simpa [AssemblyReference.text] using passed

theorem AssemblyReference.removeVersions_text (assembly : AssemblyReference) :
    removeVersions (assembly.text true) = assembly.text false := by
  have whole := @removeVersions_reference assembly [] []
    (versionless_of_isEscaped assembly.name.escaped) (fun symbol member => by cases member)
  simpa [removeVersions, removeVersionsFrom] using whole

theorem removeVersions_qualifier (assembly : AssemblyReference) {rest : List Char}
    (closes : Closes rest) :
    removeVersions (", ".toList ++ (assembly.text true ++ rest)) =
      ", ".toList ++ (assembly.text false ++ removeVersions rest) := by
  have started (symbol : Char) (different : symbol ≠ 'V') {text : List Char}
      (absent : ¬ versionKey <:+: text) : ¬ versionKey <:+: symbol :: text := by
    intro occurs
    rcases List.infix_cons_iff.mp occurs with start | inner
    · exact different (List.cons_prefix_cons.mp
        (start : 'V' :: "ersion=".toList <+: symbol :: text)).1.symm
    · exact absent inner
  exact removeVersions_reference assembly (started ',' (by decide)
    (started ' ' (by decide) (versionless_of_isEscaped assembly.name.escaped))) closes

theorem QualifiedName.removeVersions_text (name : QualifiedName) {rest : List Char}
    (closes : Closes rest) :
    removeVersions (name.text true ++ rest) = name.text false ++ removeVersions rest := by
  induction name generalizing rest with
  | mk path arguments suffixes assembly each =>
    have plain : ',' ∉ path.text := fun member => by cases path.plain ',' member
    have inner : ∀ argument ∈ arguments,
        Unversions (argument.text true ++ [']']) (argument.text false ++ [']']) := by
      intro argument member rest
      have closed := each argument member
        (fun symbol same => (Option.some.inj same).symm : Closes (']' :: rest))
      have bracket := Unversions.of_plain (by decide : ',' ∉ [']']) rest
      simp only [List.append_assoc, List.cons_append, List.nil_append] at closed bracket ⊢
      rw [closed, bracket]
    have front := ((Unversions.of_plain plain).append (.bracketed inner)).append
      (.flatMap fun suffix (_ : suffix ∈ suffixes) => .suffix suffix)
      (", ".toList ++ (assembly.text true ++ rest))
    simp only [text, argumentTexts_eq]
    have back := removeVersions_qualifier assembly closes
    simp only [List.append_assoc] at front back ⊢
    rw [front, back]

theorem AssemblyReference.unmarked (assembly : AssemblyReference) :
    '%' ∉ assembly.text false := by
  intro member
  rcases List.mem_append.mp member with inner | last
  · rcases List.mem_append.mp inner with named | none
    · exact assembly.name.unmarked named
    · cases none
  · exact assembly.further.unmarked last

theorem TypeSuffix.unmarked (suffix : TypeSuffix) : '%' ∉ suffix.text := by
  cases suffix with
  | array furtherDimensions => simp [TypeSuffix.text, List.mem_replicate]
  | generalArray | pointer | reference => decide

theorem unmarked_bracketed {texts : List (List Char)} (each : ∀ text ∈ texts, '%' ∉ text) :
    '%' ∉ bracketed texts := by
  cases texts with
  | nil => exact List.not_mem_nil
  | cons first rest =>
    have head := each first List.mem_cons_self
    have tail := fun text member => each text (List.mem_cons_of_mem _ member)
    simpa [bracketed, head] using tail

theorem QualifiedName.unmarked (name : QualifiedName) : '%' ∉ name.text false := by
  induction name with
  | mk path arguments suffixes assembly each =>
    have plain : '%' ∉ path.text := fun member => by cases path.plain '%' member
    have inner : '%' ∉ bracketed (arguments.map (text false)) :=
      unmarked_bracketed fun text member => by
        obtain ⟨argument, listed, rfl⟩ := List.mem_map.mp member
        exact each argument listed
    have outer : '%' ∉ suffixes.flatMap TypeSuffix.text := fun member => by
      obtain ⟨suffix, -, inside⟩ := List.mem_flatMap.mp member
      exact suffix.unmarked inside
    have last := assembly.unmarked
    simp [text, argumentTexts_eq, plain, inner, outer, last]

private theorem absent_of_all {unwanted : Char → Bool} {text : List Char}
    (checked : text.all (fun symbol => !unwanted symbol) = true) :
    ∀ symbol ∈ text, unwanted symbol = false := by
  simpa using checked

/-- `mscorlib` -/
def frameworkReference : AssemblyReference where
  name := ⟨"mscorlib".toList, by decide, by decide, by decide⟩
  versionPart := ⟨"4.0.0.0".toList, "neutral".toList, "b77a5c561934e089".toList,
    absent_of_all (by decide), absent_of_all (by decide), List.all_eq_true.mp (by decide)⟩
  further := ⟨[], by simp, by decide, by decide⟩

example : (QualifiedName.mk ⟨"System.Nullable`1".toList, absent_of_all (by decide)⟩
    [.mk ⟨"System.Int32".toList, absent_of_all (by decide)⟩ [] [] frameworkReference] [.array 1]
    frameworkReference).text false =
      "System.Nullable`1[[System.Int32, mscorlib]][,], mscorlib".toList := by
  decide

end OddJob
