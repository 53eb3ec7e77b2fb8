/-
**The buffer of the configuration file.**

`load_and_parse_conf_file` reads `extlinux.conf` to a buffer of the heap and takes it apart there.
Nothing ends the file itself, so the text goes on with the bytes that were in the buffer before. And
on a first line that is only a comment the loop that removes white space leaves the buffer.
-/

import Cboot.LinuxBoot.ConfTrim
import Cboot.Utils.Strings

namespace Cboot.LinuxBoot

open Tape

/-! ### The tokens of a text -/

section Tokens

variable {gap token rest : Text}

theorem strtokLines_newline (text : Text) : strtokLines ('\n' :: text) = strtokLines text := by
  have cut : ('\n' :: text).splitOn '\n' = [] :: text.splitOn '\n' := by
    rw [List.splitOn, List.splitOn, List.splitOnP_cons_eq_if_modifyHead]
    exact if_pos rfl
  rw [strtokLines, cut]
  rfl

theorem strtokLines_gap (ends : ∀ c ∈ gap, c = '\n') (text : Text) :
    strtokLines (gap ++ text) = strtokLines text := by
  induction gap with
  | nil => rfl
  | cons c gap ih =>
    rw [List.cons_append, ends c (.head _), strtokLines_newline]
    exact ih fun d member => ends d (.tail c member)

theorem splitOn_token (oneLine : '\n' ∉ token) : token.splitOn '\n' = [token] :=
  List.splitOnP_eq_singleton fun _ member => beq_false_of_ne fun same => oneLine (same ▸ member)

theorem strtokLines_last (some_ : token ≠ []) (oneLine : '\n' ∉ token) :
    strtokLines token = [token] := by
  rw [strtokLines, splitOn_token oneLine]
  exact List.filter_cons_of_pos (by simpa using some_)

theorem strtokLines_more (some_ : token ≠ []) (oneLine : '\n' ∉ token) (rest : Text) :
    strtokLines (token ++ '\n' :: rest) = token :: strtokLines rest := by
  have cut : (token ++ '\n' :: rest).splitOn '\n' = [token] ++ rest.splitOn '\n' := by
    rw [← splitOn_token oneLine]
    exact List.splitOnP_append_cons token rest rfl
  rw [strtokLines, cut, List.filter_append]
  exact congrArg (· ++ _) (List.filter_cons_of_pos (by simpa using some_))

theorem text_cases (text : Text) : ∃ gap : Text, (∀ c ∈ gap, c = '\n') ∧
    (text = gap ∨ ∃ token : Text, token ≠ [] ∧ '\n' ∉ token ∧
      (text = gap ++ token ∨ ∃ rest, text = gap ++ (token ++ '\n' :: rest))) := by
  have ends : ∀ c ∈ text.takeWhile (· == '\n'), c = '\n' := by
    intro c member
    have newline := List.mem_takeWhile_imp member
    exact eq_of_beq newline
  refine ⟨text.takeWhile (· == '\n'), ends, ?_⟩
  have parts := List.takeWhile_append_dropWhile (p := (· == '\n')) (l := text)
  cases begins : text.dropWhile (· == '\n') with
  | nil =>
    rw [begins, List.append_nil] at parts
    exact .inl parts.symm
  | cons c tail =>
    have other : (c != '\n') = true := by
      have head := List.head?_dropWhile_not (· == '\n') text
      rw [begins] at head
      exact bne_iff_ne.mpr fun same => Bool.false_ne_true (head.symm.trans (beq_iff_eq.mpr same))
    rw [begins] at parts
    have partsToo := List.takeWhile_append_dropWhile (p := (· != '\n')) (l := c :: tail)
    refine .inr ⟨(c :: tail).takeWhile (· != '\n'), ?_, fun member => ?_, ?_⟩
    · rw [List.takeWhile_cons, if_pos other]
      exact List.cons_ne_nil _ _
    · have wrong := List.mem_takeWhile_imp member
      cases wrong
    · cases ended : (c :: tail).dropWhile (· != '\n') with
      | nil =>
        rw [ended, List.append_nil] at partsToo
        exact .inl (by rw [partsToo, parts])
      | cons d rest =>
        have newline : d = '\n' := by
          have head := List.head?_dropWhile_not (· != '\n') (c :: tail)
          rw [ended] at head
          exact bne_eq_false_iff_eq.mp head
        rw [ended, newline] at partsToo
        exact .inr ⟨rest, by rw [partsToo, parts]⟩

end Tokens

/-! ### All lines -/

def parseTokens : Nat → Option Nat → TapeM Char (List Nat)
  | 0, _ => stuck
  | _, none => pure []
  | fuel + 1, some p => do
    match ← strtokAt (fuel + 1) p with
    | none => pure []
    | some (token, next) => do
      let str ← removeWhitespaceAndCommentAt (fuel + 1) token
      let rest ← parseTokens fuel next
      pure (str :: rest)

def lowestOf (p : Nat) (text : Text) : Nat := ((strtokLines text).head?.map (lowest p)).getD p

theorem le_lowestOf (p : Nat) (text : Text) : p - 1 ≤ lowestOf p text := by
  rw [lowestOf]
  cases (strtokLines text).head? with
  | none => exact Nat.sub_le p 1
  | some token =>
    show p - 1 ≤ lowest p token
    rw [lowest]
    split
    · exact le_rfl
    · exact Nat.sub_le p 1

def LineAt (mem : Nat → Char) (p high : Nat) (str : Nat) (line : Text) : Prop :=
  Spells mem str (line ++ ['\x00']) ∧ p ≤ str ∧ str + line.length ≤ high

structure ParseSpec (p : Nat) (text : Text) (t : Tape Char) (strs : List Nat) (t' : Tape Char) :
    Prop where
  lines : List.Forall₂ (LineAt t'.mem p (p + text.length)) strs
    ((strtokLines text).map removeWhitespaceAndComment)
  touched :
    Touched (Set.Icc (lowestOf p text) (p + text.length)) (Set.Ico p (p + text.length)) t t'
  reached : p + text.length ∈ t'.reads
  comment : ∀ token ∈ (strtokLines text).head?, CommentOnly token → p - 1 ∈ t'.reads

section Parse

variable {fuel p : Nat} {t : Tape Char} {gap token rest : Text}

theorem parseTokens_end (spelled : Spells t.mem p (gap ++ ['\x00'])) (ends : ∀ c ∈ gap, c = '\n')
    (enough : gap.length < fuel) :
    ∃ strs t', parseTokens fuel (some p) t = some (strs, t') ∧ ParseSpec p gap t strs t' := by
  obtain ⟨fuel, rfl⟩ := Nat.exists_eq_succ_of_ne_zero (Nat.ne_of_gt (Nat.zero_lt_of_lt enough))
  have none : strtokLines gap = [] := by
    have all := strtokLines_gap ends []
    rw [List.append_nil] at all
    exact all
  obtain ⟨t', ran, -, touched, reached⟩ := strtok_none spelled ends enough
  refine ⟨[], t', ?_, ?_, ?_, reached, ?_⟩
  · rw [parseTokens, bind_run ran]
    rfl
  · rw [none]
    exact List.Forall₂.nil
  · rw [lowestOf, none]
    exact touched.mono (Set.Subset.refl _) (Set.empty_subset _)
  · rw [none]
    exact fun token member => nomatch member

section

variable (ends : ∀ c ∈ gap, c = '\n') (some_ : token ≠ []) (oneLine : '\n' ∉ token)
  (noZero : '\x00' ∉ token) (positive : 0 < p)
  (stops : ¬CommentOnly token ∨ isspace (t.mem (p - 1)) = false)
  (enough : gap.length + token.length < fuel + 1)
include ends some_ oneLine noZero positive stops enough

theorem parseTokens_step {last : Char} {high : Nat}
    (spelled : Spells t.mem p (gap ++ (token ++ [last]))) (stop : last = '\x00' ∨ last = '\n')
    (within : p + gap.length + token.length ≤ high)
    (moreWithin : last = '\n' → p + gap.length + token.length < high) :
    ∃ str t₂, LineAt t₂.mem p (p + gap.length + token.length) str
        (removeWhitespaceAndComment token) ∧
      Touched (Set.Icc (lowest p token) high) (Set.Ico p high) t t₂ ∧
      (∀ a, p + gap.length + token.length ≤ a →
        t₂.mem a = Function.update t.mem (p + gap.length + token.length) '\x00' a) ∧
      p + gap.length + token.length ∈ t₂.reads ∧ (CommentOnly token → p - 1 ∈ t₂.reads) ∧
      ∀ strs t₃, parseTokens fuel
          (if last = '\x00' then none else some (p + gap.length + token.length + 1)) t₂ =
            some (strs, t₃) →
        parseTokens (fuel + 1) (some p) t = some (str :: strs, t₃) := by
  obtain ⟨t₁, ran₁, mem₁, touched₁, reached₁⟩ :=
    strtok_found spelled ends some_ oneLine noZero stop enough within moreWithin
  have kept : ∀ a, a ≠ p + gap.length + token.length → t₁.mem a = t.mem a := by
    intro a other
    rw [mem₁]
    exact Function.update_of_ne other _ _
  have zero : t₁.mem (p + gap.length + token.length) = '\x00' := by
    rw [mem₁, Function.update_self]
  obtain ⟨inGap, behind⟩ := Spells.append.mp spelled
  obtain ⟨inToken, -⟩ := Spells.append.mp behind
  obtain ⟨str, t₂, ran₂, line⟩ := removeAt_spec (p := p) (t := t₁)
    (Spells.append.mpr ⟨inToken.congr fun a _ high => kept a (by omega), zero, trivial⟩)
    some_ oneLine noZero
    (fun a low high => by
      rw [kept a (by omega)]
      exact blank_cells inGap (fun c member => ends c member ▸ rfl) low high)
    positive (Nat.le_add_right p gap.length) (by rw [kept _ (by omega)]; exact stops)
    (Nat.lt_of_le_of_lt (Nat.le_add_left _ _) enough)
  refine ⟨str, t₂, ⟨line.text, (Nat.le_add_right _ _).trans line.low, line.high⟩,
    (touched₁.mono (Set.Icc_subset_Icc_left (lowest_le p token)) (Set.Subset.refl _)).trans
      (line.touched.mono (Set.Icc_subset_Icc_right within) (Set.Ico_subset_Ico_right within)),
    fun a low => ?_, line.touched.recorded _ reached₁, line.comment, fun strs t₃ ran₃ => ?_⟩
  · rw [line.touched.kept a fun inside => Nat.not_lt.mpr low inside.2, mem₁]
  · rw [parseTokens, bind_run ran₁]
    show (removeWhitespaceAndCommentAt _ _ >>= _) t₁ = _
    rw [bind_run ran₂, bind_run ran₃]
    rfl

theorem parseTokens_last (spelled : Spells t.mem p (gap ++ (token ++ ['\x00']))) :
    ∃ strs t', parseTokens (fuel + 1) (some p) t = some (strs, t') ∧
      ParseSpec p (gap ++ token) t strs t' := by
  have one : strtokLines (gap ++ token) = [token] := by
    rw [strtokLines_gap ends, strtokLines_last some_ oneLine]
  have size : p + (gap ++ token).length = p + gap.length + token.length := by
    rw [List.length_append, Nat.add_assoc]
  obtain ⟨str, t₂, line, touched, -, reached, comment, ran⟩ := parseTokens_step ends some_
    oneLine noZero positive stops enough spelled (.inl rfl) le_rfl (fun wrong => nomatch wrong)
  have rest : parseTokens fuel none t₂ = some ([], t₂) := by
    have long := List.length_pos_of_ne_nil some_
    obtain ⟨fuel, rfl⟩ := Nat.exists_eq_succ_of_ne_zero (show fuel ≠ 0 by omega)
    rfl
  refine ⟨[str], t₂, ran [] t₂ rest, ?_, ?_, size ▸ reached, ?_⟩
  · rw [one, size]
    exact List.Forall₂.cons line List.Forall₂.nil
  · rw [lowestOf, one, size]
    exact touched
  · rw [one]
    rintro _ ⟨⟩
    exact comment

theorem parseTokens_more (spelled : Spells t.mem p (gap ++ (token ++ '\n' :: (rest ++ ['\x00']))))
    (later : ∀ {t : Tape Char},
      Spells t.mem (p + gap.length + token.length + 1) (rest ++ ['\x00']) →
      isspace (t.mem (p + gap.length + token.length)) = false →
      ∃ strs t', parseTokens fuel (some (p + gap.length + token.length + 1)) t = some (strs, t') ∧
        ParseSpec (p + gap.length + token.length + 1) rest t strs t') :
    ∃ strs t', parseTokens (fuel + 1) (some p) t = some (strs, t') ∧
      ParseSpec p (gap ++ (token ++ '\n' :: rest)) t strs t' := by
  have more : strtokLines (gap ++ (token ++ '\n' :: rest)) = token :: strtokLines rest := by
    rw [strtokLines_gap ends, strtokLines_more some_ oneLine]
  have size : p + (gap ++ (token ++ '\n' :: rest)).length =
      p + gap.length + token.length + 1 + rest.length := by
    rw [List.length_append, List.length_append, List.length_cons]
    omega
  obtain ⟨inGap, behind⟩ := Spells.append.mp spelled
  obtain ⟨inToken, newline, inRest⟩ := Spells.append.mp behind
  obtain ⟨str, t₂, line, touched, kept, -, comment, ran⟩ :=
    parseTokens_step ends some_ oneLine noZero positive stops enough
      (Spells.append.mpr ⟨inGap, Spells.append.mpr ⟨inToken, newline, trivial⟩⟩) (.inr rfl)
      (show _ ≤ p + gap.length + token.length + 1 + rest.length by omega) (fun _ => by omega)
  obtain ⟨strs, t₃, ran₃, others⟩ := @later t₂
    (inRest.congr fun a low _ => by rw [kept a (by omega), Function.update_of_ne (by omega)])
    (by rw [kept _ le_rfl, Function.update_self]; rfl)
  have under := lowest_le p token
  have underToo := le_lowestOf (p + gap.length + token.length + 1) rest
  refine ⟨str :: strs, t₃, ran strs t₃ ran₃, ?_, ?_, size ▸ others.reached, ?_⟩
  · rw [more, List.map_cons, size]
    have bound := line.2.2
    refine List.Forall₂.cons ⟨line.1.congr fun a _ high => ?_, line.2.1, by omega⟩
      (others.lines.imp fun _ _ found => ⟨found.1, by have := found.2.1; omega, found.2.2⟩)
    rw [List.length_append, List.length_singleton] at high
    exact others.touched.kept a fun inside => absurd inside.1 (by omega)
  · rw [lowestOf, more, size]
    exact touched.trans (others.touched.mono (Set.Icc_subset_Icc_left
      (show lowest p token ≤ _ by omega)) (Set.Ico_subset_Ico_left (by omega)))
  · rw [more]
    rintro _ ⟨⟩ isComment
    exact others.touched.recorded _ (comment isComment)

end

theorem parseTokens_spec {text : Text} (spelled : Spells t.mem p (text ++ ['\x00']))
    (noZero : '\x00' ∉ text) (positive : 0 < p)
    (stops : (∀ token ∈ (strtokLines text).head?, ¬CommentOnly token) ∨
      isspace (t.mem (p - 1)) = false)
    (enough : text.length < fuel) :
    ∃ strs t', parseTokens fuel (some p) t = some (strs, t') ∧ ParseSpec p text t strs t' := by
  induction fuel generalizing p t text with
  | zero => exact absurd enough (Nat.not_lt_zero _)
  | succ fuel ih =>
    obtain ⟨gap, ends, rfl | ⟨token, some_, oneLine, rfl | ⟨rest, rfl⟩⟩⟩ := text_cases text
    · exact parseTokens_end spelled ends enough
    · rw [strtokLines_gap ends, strtokLines_last some_ oneLine] at stops
      rw [List.length_append] at enough
      rw [List.append_assoc] at spelled
      exact parseTokens_last ends some_ oneLine
        (fun member => noZero (List.mem_append_right _ member)) positive
        (stops.imp_left fun first => first token rfl) enough spelled
    · rw [strtokLines_gap ends, strtokLines_more some_ oneLine] at stops
      rw [List.length_append, List.length_append, List.length_cons] at enough
      rw [List.append_assoc, List.append_assoc, List.cons_append] at spelled
      have noZeroToken : '\x00' ∉ token := fun member =>
        noZero (List.mem_append_right _ (List.mem_append_left _ member))
      have noZeroRest : '\x00' ∉ rest := fun member =>
        noZero (List.mem_append_right _ (List.mem_append_right _ (.tail _ member)))
      refine parseTokens_more ends some_ oneLine noZeroToken positive
        (stops.imp_left fun first => first token rfl) (by omega) spelled fun spelled' zero => ?_
      exact ih spelled' noZeroRest (Nat.succ_pos _) (.inr zero) (by omega)

end Parse

/-! ### The file in its buffer -/

def charMem (mem : ByteMem) : Nat → Char := fun a => Char.ofNat (mem a).toNat

def fileChars (data : List Byte) : Text := data.map fun c => Char.ofNat c.toNat

def fileText (data : List Byte) : Text := (fileChars data).takeWhile (· != '\x00')

def addressSpace : Nat := 2 ^ 64

def parseBuffer (base : Nat) (mem : ByteMem) : Option (List Nat × Tape Char) :=
  parseTokens addressSpace (some base) (Tape.fresh (charMem mem))

def Confined (base : Nat) (data : List Byte) : Prop :=
  ∃ lines : List Text, ∀ mem : ByteMem, mem.load base data.length = data →
    ∃ strs t, parseBuffer base mem = some (strs, t) ∧
      List.Forall₂ (LineAt t.mem base (base + data.length - 1)) strs lines ∧
      (∀ a ∈ t.reads, base ≤ a ∧ a < base + data.length) ∧
      ∀ a ∈ t.writes, base ≤ a ∧ a < base + extlinuxConfMaxSize

section File

variable {base : Nat} {mem : ByteMem} {data : List Byte}

theorem charMem_spells (placed : mem.load base data.length = data) :
    Spells (charMem mem) base (fileChars data) := by
  have loaded : Spells (charMem mem) base (fileChars (mem.load base data.length)) := by
    refine spells_iff.mpr fun i inside => ?_
    simp only [fileChars, List.getElem_map, ByteMem.load_getElem]
    rfl
  rwa [placed] at loaded

theorem mem_fileChars : '\x00' ∈ fileChars data ↔ 0 ∈ data := by
  have only : ∀ c : Byte, Char.ofNat c.toNat = '\x00' → c = 0 := by decide
  constructor
  · intro member
    obtain ⟨c, inside, zero⟩ := List.mem_map.mp member
    exact only c zero ▸ inside
  · exact fun member => List.mem_map.mpr ⟨0, member, rfl⟩

theorem noZero_fileText : '\x00' ∉ fileText data := by
  intro member
  have other := List.mem_takeWhile_imp member
  cases other

theorem fileText_length : (fileText data).length ≤ data.length := by
  have short := (List.takeWhile_sublist (p := (· != '\x00')) (l := fileChars data)).length_le
  rwa [fileChars, List.length_map] at short

theorem fileText_ends (zero : 0 ∈ data) (placed : mem.load base data.length = data) :
    Spells (charMem mem) base (fileText data ++ ['\x00']) ∧
      (fileText data).length < data.length := by
  have parts := List.takeWhile_append_dropWhile (p := (· != '\x00')) (l := fileChars data)
  cases rest : (fileChars data).dropWhile (· != '\x00') with
  | nil =>
    have none := List.dropWhile_eq_nil_iff.mp rest _ (mem_fileChars.mpr zero)
    cases none
  | cons c more =>
    have isZero : c = '\x00' := by
      have head := List.head?_dropWhile_not (· != '\x00') (fileChars data)
      rw [rest] at head
      exact bne_eq_false_iff_eq.mp head
    rw [rest, isZero] at parts
    have spelled := charMem_spells placed
    rw [← parts] at spelled
    obtain ⟨inText, atZero, -⟩ := Spells.append.mp spelled
    refine ⟨Spells.append.mpr ⟨inText, atZero, trivial⟩, ?_⟩
    have sizes := congrArg List.length parts
    rw [List.length_append, List.length_cons, fileChars, List.length_map] at sizes
    rw [fileText, fileChars]
    omega

theorem fileText_whole (noZero : 0 ∉ data) : fileText data = fileChars data :=
  List.takeWhile_eq_self_iff.mpr fun _ member =>
    bne_iff_ne.mpr fun same => noZero (mem_fileChars.mp (same ▸ member))

theorem parseBuffer_zero (positive : 0 < base) (fits : data.length ≤ extlinuxConfMaxSize) :
    ∃ strs t, parseBuffer base (ByteMem.store (fun _ => 0) base data) = some (strs, t) ∧
      base + (fileText data).length ∈ t.reads ∧
      ∀ token ∈ (strtokLines (fileText data)).head?, CommentOnly token → base - 1 ∈ t.reads := by
  obtain ⟨mem, isMem⟩ : ∃ mem, mem = ByteMem.store (fun _ => 0) base data := ⟨_, rfl⟩
  have placed : mem.load base data.length = data := by
    rw [isMem]
    exact ByteMem.load_store_self _ _ _
  have outside : ∀ a, a < base ∨ base + data.length ≤ a → charMem mem a = '\x00' := by
    intro a out
    rw [charMem, isMem, ByteMem.store_outside _ _ _ _ out]
    rfl
  have spelled : Spells (charMem mem) base (fileText data ++ ['\x00']) := by
    by_cases zero : 0 ∈ data
    · exact (fileText_ends zero placed).1
    · rw [fileText_whole zero]
      refine Spells.append.mpr ⟨charMem_spells placed, outside _ (.inr ?_), trivial⟩
      rw [fileChars, List.length_map]
  have enough : (fileText data).length < addressSpace :=
    Nat.lt_of_le_of_lt (fileText_length.trans fits) (by decide)
  obtain ⟨strs, t, ran, spec⟩ := parseTokens_spec (t := Tape.fresh (charMem mem)) spelled
    noZero_fileText positive (.inr (by
      show isspace (charMem mem (base - 1)) = false
      rw [outside _ (.inl (Nat.sub_lt positive Nat.one_pos))]
      rfl)) enough
  exact ⟨strs, t, isMem ▸ ran, spec.reached, spec.comment⟩

/-- **The parser stays in the file** exactly when the file has a zero and its first line is not only
a comment. -/
theorem confined_iff (positive : 0 < base) (fits : data.length ≤ extlinuxConfMaxSize) :
    Confined base data ↔
      0 ∈ data ∧ ∀ token ∈ (strtokLines (fileText data)).head?, ¬CommentOnly token := by
  constructor
  · rintro ⟨lines, runs⟩
    obtain ⟨strs, t, ran, -, reads, -⟩ := runs _ (ByteMem.load_store_self (fun _ => 0) base data)
    obtain ⟨strs', t', ran', reached, comment⟩ := parseBuffer_zero positive fits
    rw [ran] at ran'
    cases ran'
    refine ⟨?_, fun token first isComment => ?_⟩
    · by_contra noZero
      have last := (reads _ reached).2
      rw [fileText_whole noZero, fileChars, List.length_map] at last
      exact Nat.lt_irrefl _ last
    · have before := (reads _ (comment token first isComment)).1
      omega
  · rintro ⟨zero, notComment⟩
    refine ⟨(strtokLines (fileText data)).map removeWhitespaceAndComment, fun mem placed => ?_⟩
    obtain ⟨spelled, shorter⟩ := fileText_ends zero placed
    have enough : (fileText data).length < addressSpace :=
      Nat.lt_of_le_of_lt (fileText_length.trans fits) (by decide)
    obtain ⟨strs, t, ran, spec⟩ := parseTokens_spec (t := Tape.fresh (charMem mem)) spelled
      noZero_fileText positive (.inl notComment) enough
    have low : lowestOf base (fileText data) = base := by
      rw [lowestOf]
      cases first : (strtokLines (fileText data)).head? with
      | none => rfl
      | some token =>
        show lowest base token = base
        rw [lowest, if_neg (notComment token first)]
    have lines := spec.lines.imp fun str line (found : LineAt t.mem base _ str line) =>
      (⟨found.1, found.2.1, by have := found.2.2; omega⟩ :
        LineAt t.mem base (base + data.length - 1) str line)
    refine ⟨strs, t, ran, lines, ?_, ?_⟩
    · intro a member
      rcases spec.touched.reads a member with none | inside
      · cases none
      · rw [low] at inside
        exact ⟨inside.1, by have := inside.2; omega⟩
    · intro a member
      rcases spec.touched.writes a member with none | inside
      · cases none
      · exact ⟨inside.1, by have := inside.2; omega⟩

end File

/-! ### A file without an end -/

def oneLabel : List Byte := textBytes "LABEL a\n"

def cleanBuffer : ByteMem := ByteMem.store (fun _ => 0) 16 oneLabel

def usedBuffer : ByteMem := ByteMem.store (fun _ => 0) 16 (oneLabel ++ textBytes "LABEL b\n")

/-- **The end of an earlier file is parsed as well.** -/
theorem old_label_parsed :
    cleanBuffer.load 16 oneLabel.length = oneLabel ∧
      usedBuffer.load 16 oneLabel.length = oneLabel ∧
      (parseBuffer 16 cleanBuffer).map Prod.fst = some [16] ∧
      (parseBuffer 16 usedBuffer).map Prod.fst = some [16, 24] ∧ ¬Confined 16 oneLabel := by
  have clean : (parseBuffer 16 cleanBuffer).map Prod.fst = some [16] := by decide +kernel
  have used : (parseBuffer 16 usedBuffer).map Prod.fst = some [16, 24] := by decide +kernel
  have placed : cleanBuffer.load 16 oneLabel.length = oneLabel := by decide +kernel
  have placedToo : usedBuffer.load 16 oneLabel.length = oneLabel := by decide +kernel
  refine ⟨placed, placedToo, clean, used, ?_⟩
  rintro ⟨lines, runs⟩
  obtain ⟨strs, t, ran, found, -⟩ := runs _ placed
  obtain ⟨strs', t', ran', found', -⟩ := runs _ placedToo
  rw [ran] at clean
  rw [ran'] at used
  have one : strs = [16] := Option.some.inj clean
  have two : strs' = [16, 24] := Option.some.inj used
  have lengths := found.length_eq.trans found'.length_eq.symm
  rw [one, two] at lengths
  cases lengths

/-- The law at a file with an end. -/
theorem confined_one_label :
    0 < 16 ∧ (oneLabel ++ [0]).length ≤ extlinuxConfMaxSize ∧
      (Confined 16 (oneLabel ++ [0]) ↔ 0 ∈ oneLabel ++ [0] ∧
        ∀ token ∈ (strtokLines (fileText (oneLabel ++ [0]))).head?, ¬CommentOnly token) :=
  ⟨by decide, by decide, confined_iff (by decide) (by decide)⟩

end Cboot.LinuxBoot
