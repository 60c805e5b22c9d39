import Rebuild.Proofs.Manifest.Progress
import Rebuild.Proofs.Text.Utf8

/-!
# A manifest cut into tokens

Token after token is read until the end of the manifest or a fault is reached, and nothing of what
was moved over is lost: it belongs to a token, or it is a space, a line end or in a comment. `Cut`
says this of a part of the text, and parts that follow each other are put together by `Cut.append`.
So it is enough to say what a single step adds: a gap, a line end or a token.
-/

namespace Rebuild

open Manifest

namespace Manifest

/-- A line that holds a comment, and nothing else but spaces in front of it. -/
def OnlyComment (line : List Char) : Prop := (line.dropWhile isSpace).head? = some '#'

instance : DecidablePred OnlyComment := fun line =>
  inferInstanceAs (Decidable ((line.dropWhile isSpace).head? = some '#'))

/-- What a token in front of `after` is, and that it tells where it stands: behind `before`. -/
structure TokenAt (before after : List Char) (token : Token) : Prop where
  text : token.text <+: after
  location : token.location = placeAfter before
  offset : token.offset = Utf8.size before
  /-- Only the ends of lines and of the text have no text of their own. -/
  empty : token.text = [] ↔ token.kind = .newline ∨ token.kind = .eof
  /-- A token is within a line, and not in a comment. -/
  inLine : ∀ c ∈ token.text, isLineEnd c = false
  noComment : token.text ≠ [] → '#' ∉ lastLine (before ++ token.text)
  eof : token.kind = .eof → after = []
  /-- A line end, unless the line holds nothing but a comment. -/
  newline : token.kind = .newline → ¬OnlyComment (lastLine before) ∧ Whole before after ∧
    ∃ c ∈ after.head?, isLineEnd c = true
  /-- The spaces at the start of a line that goes on with something else than a comment. -/
  indent : token.kind = .indent → lastLine before = [] ∧ (∀ c ∈ token.text, c = ' ') ∧
    ∃ c rest, after = token.text ++ c :: rest ∧ c ≠ ' ' ∧ c ≠ '#' ∧ isLineEnd c = false

/-- The part of a text that comes behind `p` and reaches up to `q` is cut into the tokens. -/
structure Cut (text p q : List Char) (tokens : List Token) : Prop where
  onward : p <+: q
  within : q <+: text
  /-- Every token stands in this part. -/
  stand : ∀ t ∈ tokens, ∃ before after, text = before ++ after ∧ TokenAt before after t ∧
    p <+: before ∧ before ++ t.text <+: q
  /-- Every token begins behind those before it. -/
  ordered : tokens.Pairwise fun s t =>
    s.offset < t.offset ∧ s.offset + Utf8.size s.text ≤ t.offset
  /-- A character that belongs to no token is a space, of a line end or in a comment. -/
  covered : ∀ before c, p <+: before → before ++ [c] <+: q →
    (∃ t ∈ tokens, t.offset ≤ Utf8.size before ∧
      Utf8.size before < t.offset + Utf8.size t.text) ∨
    c = ' ' ∨ isLineEnd c = true ∨ '#' ∈ lastLine (before ++ [c])
  /-- There is one token for each line end, and none at the end of a line with only a comment. -/
  lineEnds : ∀ before lineEnd after, text = before ++ (lineEnd ++ after) → IsLineEnd lineEnd after →
    Whole before (lineEnd ++ after) → p <+: before → Utf8.size before < Utf8.size q →
    tokens.countP (fun t => t.kind = .newline ∧ t.offset = Utf8.size before) =
      if OnlyComment (lastLine before) then 0 else 1

variable {text p q r before after lineEnd gap rest more : List Char} {c : Char} {token : Token}
  {tokens others : List Token}

/-! ## Prefixes -/

theorem prefix_cases (h : before ++ [c] <+: text) (hq : q <+: text) :
    q <+: before ∨ before ++ [c] <+: q := by
  rcases List.prefix_or_prefix_of_prefix hq h with hle | hle
  · rcases List.prefix_concat_iff.mp hle with rfl | hle
    · exact .inr List.prefix_rfl
    · exact .inl hle
  · exact .inr hle

/-- What begins the text behind `before` stands in every longer part of the text. -/
theorem snoc_prefix_of_size_lt (hq : q <+: before ++ c :: rest)
    (h : Utf8.size before < Utf8.size q) : before ++ [c] <+: q := by
  have hc : before ++ [c] <+: before ++ c :: rest := by simp
  refine (prefix_cases hc hq).resolve_left fun hle => ?_
  have := Utf8.size_le_of_prefix hle
  omega

/-- A character behind `p` that is not behind `p ++ more` is in `more`. -/
theorem exists_split_of_snoc (hp : p <+: before) (h : before ++ [c] <+: p ++ more) :
    ∃ front back, before = p ++ front ∧ more = front ++ c :: back := by
  obtain ⟨front, rfl⟩ := hp
  rw [List.append_assoc, List.prefix_append_right_inj] at h
  obtain ⟨back, hback⟩ := h
  exact ⟨front, back, rfl, by simp [← hback]⟩

theorem IsLineEnd.exists_cons (h : IsLineEnd lineEnd after) :
    ∃ c rest, lineEnd = c :: rest ∧ isLineEnd c = true := by
  obtain rfl | rfl | ⟨rfl, -⟩ := h
  all_goals exact ⟨_, _, rfl, rfl⟩

/-- A line end has one character, or is a carriage return with its line feed. -/
theorem IsLineEnd.split {front back : List Char} (h : IsLineEnd lineEnd after)
    (hsplit : lineEnd = front ++ c :: back) : front = [] ∨ front = ['\r'] ∧ c = '\n' := by
  cases front with
  | nil => exact .inl rfl
  | cons d front =>
    obtain rfl | rfl | ⟨rfl, -⟩ := h
    · simp at hsplit
    · cases front with
      | nil => cases hsplit; exact .inr ⟨rfl, rfl⟩
      | cons => simp at hsplit
    · simp at hsplit

/-- A line end behind `p` that begins before the end of `p ++ more` begins in `more`. -/
theorem exists_split_of_lineEnd (h : p ++ more <+: before ++ (lineEnd ++ after))
    (hend : IsLineEnd lineEnd after) (hp : p <+: before)
    (hlt : Utf8.size before < Utf8.size (p ++ more)) :
    ∃ front c back, before = p ++ front ∧ more = front ++ c :: back ∧ isLineEnd c = true ∧
      (lineEnd ++ after).head? = some c := by
  obtain ⟨c, rest, rfl, hc⟩ := hend.exists_cons
  obtain ⟨front, back, hfront, hback⟩ :=
    exists_split_of_snoc hp (snoc_prefix_of_size_lt h hlt)
  exact ⟨front, c, back, hfront, hback, hc, rfl⟩

theorem inLine_spaces {n : Nat} : ∀ c ∈ spaces n, isLineEnd c = false := fun c hc => by
  rw [List.eq_of_mem_replicate hc]
  rfl

/-! ## Putting parts together -/

namespace Cut

theorem size_le_offset (h : Cut text p q tokens) : ∀ t ∈ tokens, Utf8.size p ≤ t.offset := by
  intro t ht
  obtain ⟨before, _, -, hfits, hp, -⟩ := h.stand t ht
  rw [hfits.offset]
  exact Utf8.size_le_of_prefix hp

theorem end_le_size (h : Cut text p q tokens) :
    ∀ t ∈ tokens, t.offset + Utf8.size t.text ≤ Utf8.size q := by
  intro t ht
  obtain ⟨before, _, -, hfits, -, hq⟩ := h.stand t ht
  rw [hfits.offset, ← Utf8.size_append]
  exact Utf8.size_le_of_prefix hq

/-- No token stands at a place outside the part. -/
theorem countP_eq_zero {n : Nat} (h : ∀ t ∈ tokens, t.offset ≠ n) :
    tokens.countP (fun t => t.kind = .newline ∧ t.offset = n) = 0 := by
  rw [List.countP_eq_zero]
  intro t ht
  simp [h t ht]

theorem append (h : Cut text p q tokens) (h' : Cut text q r others)
    (hlt : ∀ t ∈ tokens, t.offset < Utf8.size q) : Cut text p r (tokens ++ others) := by
  refine ⟨h.onward.trans h'.onward, h'.within, fun t ht => ?_, ?_, fun before c hp hr => ?_,
    fun before lineEnd after htext hend hwhole hp hr => ?_⟩
  · rcases List.mem_append.mp ht with ht | ht
    · obtain ⟨before, after, htext, hfits, hp, hq⟩ := h.stand t ht
      exact ⟨before, after, htext, hfits, hp, hq.trans h'.onward⟩
    · obtain ⟨before, after, htext, hfits, hq, hr⟩ := h'.stand t ht
      exact ⟨before, after, htext, hfits, h.onward.trans hq, hr⟩
  · refine List.pairwise_append.mpr ⟨h.ordered, h'.ordered, fun s hs t ht => ?_⟩
    have hle := h'.size_le_offset t ht
    exact ⟨(hlt s hs).trans_le hle, (h.end_le_size s hs).trans hle⟩
  · rcases prefix_cases hr h'.onward with hq | hq
    · rcases h'.covered before c hq hr with ⟨t, ht, hin⟩ | hpassed
      · exact .inl ⟨t, List.mem_append_right _ ht, hin⟩
      · exact .inr hpassed
    · rcases h.covered before c hp hq with ⟨t, ht, hin⟩ | hpassed
      · exact .inl ⟨t, List.mem_append_left _ ht, hin⟩
      · exact .inr hpassed
  · rw [List.countP_append]
    -- the line end begins on one side of `q`, and on the other side no token stands there
    obtain ⟨c, rest, rfl, hc⟩ := hend.exists_cons
    have hsnoc : before ++ [c] <+: text := by simp [htext]
    rcases prefix_cases hsnoc h.within with hq | hq
    · rw [h'.lineEnds before _ after htext hend hwhole hq hr, countP_eq_zero, Nat.zero_add]
      intro t ht
      have := hlt t ht
      have := Utf8.size_le_of_prefix hq
      omega
    · have hsize := Utf8.size_le_of_prefix hq
      have hpos := Utf8.size_pos (List.cons_ne_nil c [])
      rw [Utf8.size_append] at hsize
      rw [h.lineEnds before _ after htext hend hwhole hp (by omega), countP_eq_zero, Nat.add_zero]
      intro t ht
      have := h'.size_le_offset t ht
      omega

/-- A gap in a line comes before other parts. -/
theorem append_nil (h : Cut text p q []) (h' : Cut text q r tokens) : Cut text p r tokens :=
  h.append h' nofun

/-! ## The parts -/

end Cut

/-- Spaces and comments are passed over. -/
theorem cut_gap (hwithin : p ++ gap <+: text) (hinLine : ∀ c ∈ gap, isLineEnd c = false)
    (hgap : ∀ front c back, gap = front ++ c :: back → c = ' ' ∨ '#' ∈ front ++ [c]) :
    Cut text p (p ++ gap) [] := by
  refine ⟨List.prefix_append p gap, hwithin, nofun, .nil, fun before c hp hq => .inr ?_,
    fun before lineEnd after htext hend _ hp hq => ?_⟩
  · obtain ⟨front, back, rfl, hmore⟩ := exists_split_of_snoc hp hq
    refine (hgap front c back hmore).imp_right fun hcomment => .inr ?_
    have hfront : ∀ ch ∈ front ++ [c], isLineEnd ch = false := fun ch hch =>
      hinLine ch (by rw [hmore]; simp only [List.mem_append, List.mem_cons] at hch ⊢; tauto)
    rw [List.append_assoc, lastLine_append_of_inLine p hfront]
    exact List.mem_append_right _ hcomment
  · obtain ⟨front, c, back, -, hmore, hc, -⟩ :=
      exists_split_of_lineEnd (htext ▸ hwithin) hend hp hq
    rw [hinLine c (by simp [hmore])] at hc
    cases hc

theorem cut_spaces {n : Nat} (hwithin : p ++ spaces n <+: text) :
    Cut text p (p ++ spaces n) [] := by
  have hspace : ∀ c ∈ spaces n, c = ' ' := fun c hc => List.eq_of_mem_replicate hc
  refine cut_gap hwithin inLine_spaces fun front c back hmore => .inl ?_
  exact hspace c (by simp [hmore])

theorem cut_comment {note : List Char} (hwithin : p ++ '#' :: note <+: text)
    (hnote : ∀ c ∈ note, isLineEnd c = false) : Cut text p (p ++ '#' :: note) [] := by
  refine cut_gap hwithin (List.forall_mem_cons.mpr ⟨rfl, hnote⟩) fun front c back hmore => .inr ?_
  -- whatever part of the comment it is, it begins with the mark
  cases front with
  | nil => cases hmore; simp
  | cons ch front => cases hmore; simp

/-- A token that is part of a line. The end of the text is one, too. -/
theorem cut_token (htext : text = p ++ after) (hfits : TokenAt p after token)
    (hkind : token.kind ≠ .newline) : Cut text p (p ++ token.text) [token] := by
  have hwithin : p ++ token.text <+: text := htext ▸ (List.prefix_append_right_inj p).mpr hfits.text
  refine ⟨List.prefix_append p _, hwithin, fun t ht => ?_, List.pairwise_singleton _ _,
    fun before c hp hq => .inl ⟨token, List.mem_singleton_self _, ?_⟩,
    fun before lineEnd after htext hend _ hp hq => ?_⟩
  · obtain rfl := List.mem_singleton.mp ht
    exact ⟨p, after, htext, hfits, List.prefix_rfl, List.prefix_rfl⟩
  · have hle := Utf8.size_le_of_prefix hp
    have hlt := Utf8.size_le_of_prefix hq
    have hpos := Utf8.size_pos (List.cons_ne_nil c [])
    rw [Utf8.size_append, Utf8.size_append] at hlt
    rw [hfits.offset]
    omega
  · obtain ⟨front, c, back, -, hmore, hc, -⟩ :=
      exists_split_of_lineEnd (htext ▸ hwithin) hend hp hq
    rw [hfits.inLine c (by simp [hmore])] at hc
    cases hc

/-- A line end, for which there is a token or none. -/
theorem cut_lineEnd (htext : text = p ++ (lineEnd ++ after)) (hend : IsLineEnd lineEnd after)
    (hstand : ∀ t ∈ tokens, TokenAt p (lineEnd ++ after) t ∧ t.text = [])
    (hordered : tokens.Pairwise fun s t =>
      s.offset < t.offset ∧ s.offset + Utf8.size s.text ≤ t.offset)
    (hcount : tokens.countP (fun t => t.kind = .newline ∧ t.offset = Utf8.size p) =
      if OnlyComment (lastLine p) then 0 else 1) : Cut text p (p ++ lineEnd) tokens := by
  have hwithin : p ++ lineEnd <+: text := by simp [htext]
  refine ⟨List.prefix_append p _, hwithin, fun t ht => ?_, hordered,
    fun before c hp hq => .inr (.inr (.inl ?_)),
    fun before lineEnd' after' htext' hend' hwhole hp hq => ?_⟩
  · obtain ⟨hfits, hnil⟩ := hstand t ht
    exact ⟨p, _, htext, hfits, List.prefix_rfl, by simp [hnil]⟩
  · obtain ⟨front, back, -, hmore⟩ := exists_split_of_snoc hp hq
    have hc : c ∈ lineEnd := by simp [hmore]
    obtain rfl | rfl | ⟨rfl, -⟩ := hend
    all_goals fin_cases hc <;> rfl
  · obtain ⟨front, c, back, rfl, hmore, hc, hhead⟩ :=
      exists_split_of_lineEnd (htext' ▸ hwithin) hend' hp hq
    -- no line end begins within another one
    rcases hend.split hmore with rfl | ⟨rfl, rfl⟩
    · rw [List.append_nil]
      exact hcount
    · exact absurd hhead (hwhole (by simp))

theorem OnlyComment.append {line : List Char} (h : OnlyComment line) (more : List Char) :
    OnlyComment (line ++ more) := by
  obtain ⟨rest, hrest⟩ := List.head?_eq_some_iff.mp h
  rw [OnlyComment, List.dropWhile_append, hrest]
  rfl

theorem not_hash_mem_spaces (n : Nat) : '#' ∉ spaces n := fun h =>
  absurd (List.eq_of_mem_replicate h) (by decide)

@[simp] theorem onlyComment_spaces_append (n : Nat) (rest : List Char) :
    OnlyComment (spaces n ++ rest) ↔ OnlyComment rest := by
  have hspaces : ∀ c ∈ spaces n, isSpace c = true := fun c hc => by
    rw [List.eq_of_mem_replicate hc]
    rfl
  rw [OnlyComment, List.dropWhile_append_of_pos hspaces, OnlyComment]

theorem not_onlyComment_spaces (n : Nat) : ¬OnlyComment (spaces n) := by
  rw [← List.append_nil (spaces n), onlyComment_spaces_append]
  nofun

theorem not_onlyComment_cons (hspace : c ≠ ' ') (hcomment : c ≠ '#') :
    ¬OnlyComment (c :: rest) := by
  rw [OnlyComment, List.dropWhile_cons_of_neg (by simpa [isSpace] using hspace)]
  simpa using hcomment

end Manifest

namespace Cursor

variable {text p q gap rest : List Char} {c d : Cursor} {ch : Char} {token : Token}

/-- Between two tokens the cursor stands behind `p`: at the start of a line, or in a line that does
not begin with a comment, and not in a comment. -/
structure Midway (text p : List Char) (c : Cursor) : Prop where
  passes : Passes p (start text) c
  lineStart : c.atLineStart = true → lastLine p = []
  begun : c.atLineStart = false → ¬OnlyComment (lastLine p ++ c.rest)
  noComment : '#' ∉ lastLine p

theorem midway_start (text : List Char) : Midway text [] (start text) :=
  ⟨.refl _, fun _ => rfl, nofun, nofun⟩

/-- Reading a token stops at its end, at the end of the text or at a character that begins no token,
and what was moved over is cut into the token and what was passed over. -/
def Yields (text p : List Char) : Outcome Token → Prop
  | .ok token d => ∃ q, Passes q (start text) d ∧ Cut text p q [token] ∧
      (token.kind = .eof → q = text) ∧
      (token.kind ≠ .eof → Midway text q d ∧ token.offset < Utf8.size q)
  | .error fault d => ∃ q, Passes q (start text) d ∧ Cut text p q [] ∧
      ∃ ch rest, text = q ++ ch :: rest ∧ fault = ⟨placeAfter q, .unexpectedChar ch⟩

theorem Yields.of_cut {outcome : Outcome Token} (hcut : Cut text p q [])
    (h : Yields text q outcome) : Yields text p outcome := by
  cases outcome with
  | ok token d =>
    obtain ⟨r, hpasses, htoken, hlast⟩ := h
    exact ⟨r, hpasses, hcut.append_nil htoken, hlast⟩
  | error fault d =>
    obtain ⟨r, hpasses, hfault, hstop⟩ := h
    exact ⟨r, hpasses, hcut.append_nil hfault, hstop⟩

theorem Passes.text_eq (h : Passes p (start text) c) : text = p ++ c.rest := h.rest

theorem Passes.offset_eq (h : Passes p (start text) c) : c.offset = Utf8.size p := by
  simpa [start] using h.offset

/-- A token with a text of its own. -/
theorem Passes.yields_word {kind : TokenKind} {word : List Char} (hc : Passes p (start text) c)
    (hword : Passes word c d) (hne : word ≠ [])
    (hplain : ∀ ch ∈ word, isLineEnd ch = false ∧ ch ≠ '#') (hnewline : kind ≠ .newline)
    (heof : kind ≠ .eof) (hin : d.atLineStart = false)
    (hbegun : ¬OnlyComment (lastLine p ++ c.rest)) (hcomment : '#' ∉ lastLine p)
    (hindent : kind = .indent → lastLine p = [] ∧ (∀ ch ∈ word, ch = ' ') ∧
      ∃ ch ∈ d.rest.head?, ch ≠ ' ' ∧ ch ≠ '#' ∧ isLineEnd ch = false) :
    Yields text p (.ok (c.token kind word) d) := by
  have hd := hc.trans hword
  have hinLine : ∀ ch ∈ word, isLineEnd ch = false := fun ch hch => (hplain ch hch).1
  have hlast : lastLine (p ++ word) = lastLine p ++ word := lastLine_append_of_inLine p hinLine
  have hno : '#' ∉ lastLine (p ++ word) := by
    rw [hlast, List.mem_append, not_or]
    exact ⟨hcomment, fun hmem => (hplain _ hmem).2 rfl⟩
  have htext : text = p ++ (word ++ d.rest) := hword.rest ▸ hc.text_eq
  have htoken : TokenAt p (word ++ d.rest) (c.token kind word) := by
    refine ⟨List.prefix_append .., hc.location_eq, hc.offset_eq, ?_, hinLine, fun _ => hno,
      fun h => absurd h heof, fun h => absurd h hnewline, fun h => ?_⟩
    · exact iff_of_false hne (not_or.mpr ⟨hnewline, heof⟩)
    · obtain ⟨hstart, hspaces, ch, hch, hother⟩ := hindent h
      obtain ⟨rest, hrest⟩ := List.head?_eq_some_iff.mp hch
      exact ⟨hstart, hspaces, ch, rest, congrArg _ hrest, hother⟩
  refine ⟨_, hd, cut_token htext htoken hnewline, fun h => absurd h heof,
    fun _ => ⟨⟨hd, fun hstart => ?_, fun _ => ?_, hno⟩, ?_⟩⟩
  · rw [hin] at hstart
    cases hstart
  · rw [hlast, List.append_assoc, ← hword.rest]
    exact hbegun
  · have hpos := Utf8.size_pos hne
    rw [htoken.offset, Utf8.size_append]
    omega

/-- Behind a line end a line starts. -/
theorem Passes.midway {lineEnd : List Char} (h : Passes (p ++ lineEnd) (start text) d)
    (hend : IsLineEnd lineEnd d.rest) (hstart : d.atLineStart = true) :
    Midway text (p ++ lineEnd) d := by
  have hlast : lastLine (p ++ lineEnd) = [] := hend.lastLine_append p
  refine ⟨h, fun _ => hlast, fun hin => ?_, by rw [hlast]; nofun⟩
  rw [hstart] at hin
  cases hin

/-- The token for a line end, which takes the line end with it. -/
theorem Passes.yields_lineEnd {lineEnd : List Char} (hc : Passes p (start text) c)
    (hline : Passes lineEnd c d) (hend : IsLineEnd lineEnd d.rest) (hstart : d.atLineStart = true)
    (hbegun : ¬OnlyComment (lastLine p)) : Yields text p (.ok (c.token .newline []) d) := by
  have hd := hc.trans hline
  obtain ⟨ch, rest, hlineEnd, hch⟩ := hend.exists_cons
  have hwhole : Whole p (lineEnd ++ d.rest) := hline.rest ▸ hc.whole
  have htoken : TokenAt p (lineEnd ++ d.rest) (c.token .newline []) := by
    refine ⟨List.nil_prefix, hc.location_eq, hc.offset_eq, ?_, nofun, fun h => absurd rfl h, nofun,
      fun _ => ⟨hbegun, hwhole, ch, by rw [hlineEnd]; rfl, hch⟩, nofun⟩
    exact iff_of_true rfl (.inl rfl)
  have hcount : [c.token .newline []].countP
      (fun t => t.kind = .newline ∧ t.offset = Utf8.size p) = 1 := by
    rw [List.countP_singleton, if_pos (decide_eq_true ⟨rfl, hc.offset_eq⟩)]
  have hcut : Cut text p (p ++ lineEnd) [c.token .newline []] := by
    refine cut_lineEnd (hline.rest ▸ hc.text_eq) hend (fun t ht => ?_) (List.pairwise_singleton _ _)
      (by rw [hcount, if_neg hbegun])
    obtain rfl := List.mem_singleton.mp ht
    exact ⟨htoken, rfl⟩
  have hpos := Utf8.size_pos (hlineEnd ▸ List.cons_ne_nil ch rest)
  refine ⟨_, hd, hcut, nofun, fun _ => ⟨hd.midway hend hstart, ?_⟩⟩
  rw [htoken.offset, Utf8.size_append]
  omega

theorem Passes.yields_eof (hc : Passes p (start text) c) (hnil : c.rest = []) :
    Yields text p (.ok (c.token .eof []) c) := by
  have htext : text = p ++ [] := hnil ▸ hc.text_eq
  have htoken : TokenAt p [] (c.token .eof []) := by
    refine ⟨List.nil_prefix, hc.location_eq, hc.offset_eq, ?_, nofun, fun h => absurd rfl h,
      fun _ => rfl, nofun, nofun⟩
    exact iff_of_true rfl (.inr rfl)
  have hcut := cut_token htext htoken nofun
  rw [Cursor.token, List.append_nil] at hcut
  exact ⟨p, hc, hcut, fun _ => by rw [htext, List.append_nil], fun h => absurd rfl h⟩

theorem yields_lineEndToken (hc : Passes p (start text) c) (hend : AtEnd c)
    (hbegun : ¬OnlyComment (lastLine p)) : Yields text p c.lineEndToken := by
  cases hrest : c.rest with
  | nil =>
    rw [lineEndToken, hrest]
    exact hc.yields_eof hrest
  | cons ch rest =>
    obtain ⟨lineEnd, hlineEnd, hline, hstart⟩ :=
      Passes.skipLineEnd hrest (hend ch (by rw [hrest]; rfl))
    rw [lineEndToken, hrest]
    exact hc.yields_lineEnd hline hlineEnd hstart hbegun

theorem InLineGap.inLine {kind : TokenKind} (h : InLineGap gap kind) :
    ∀ ch ∈ gap, isLineEnd ch = false := by
  obtain ⟨n, rfl | ⟨-, note, hnote, rfl⟩⟩ := h
  · exact inLine_spaces
  · refine fun ch hch => (List.mem_append.mp hch).elim (inLine_spaces ch) fun hch => ?_
    rcases List.mem_cons.mp hch with rfl | hch
    · rfl
    · exact hnote ch hch

theorem InLineGap.cut {kind : TokenKind} (h : InLineGap gap kind) (hwithin : p ++ gap <+: text) :
    Cut text p (p ++ gap) [] := by
  obtain ⟨n, rfl | ⟨-, note, hnote, rfl⟩⟩ := h
  · exact cut_spaces hwithin
  · rw [← List.append_assoc] at hwithin ⊢
    exact (cut_spaces ((List.prefix_append ..).trans hwithin)).append_nil
      (cut_comment hwithin hnote)

theorem Passes.cut_inLineGap {kind : TokenKind} (hc : Passes p (start text) c)
    (hgap : InLineGap gap kind) (h : Passes gap c d) : Cut text p (p ++ gap) [] :=
  hgap.cut ((hc.trans h).text_eq ▸ List.prefix_append ..)

theorem Midway.tokenInLine (h : Midway text p c) (hc : c.atLineStart = false) :
    Yields text p c.tokenInLine := by
  cases hread : c.tokenInLine with
  | ok token d =>
    obtain ⟨gap, hgap, htakes, hkind⟩ := takes_tokenInLine hc hread
    have hlast : lastLine (p ++ gap) = lastLine p ++ gap :=
      lastLine_append_of_inLine p hgap.inLine
    have hbegun (rest : List Char) (hrest : c.rest = gap ++ rest) :
        ¬OnlyComment (lastLine (p ++ gap) ++ rest) := by
      rw [hlast, List.append_assoc, ← hrest]
      exact h.begun hc
    cases htakes with
    | text hpasses hword hne hplain hnewline heof hin =>
      refine .of_cut (h.passes.cut_inLineGap hgap hpasses) ((h.passes.trans hpasses).yields_word
        hword hne hplain hnewline heof hin (hbegun _ hpasses.rest) ?_ fun h => absurd h hkind)
      obtain ⟨n, rfl | ⟨hends, -⟩⟩ := hgap
      · rw [hlast, List.mem_append, not_or]
        exact ⟨h.noComment, fun hmem => absurd (List.eq_of_mem_replicate hmem) (by decide)⟩
      · exact absurd hends (not_or.mpr ⟨hnewline, heof⟩)
    | lineEnd hpasses hline hend hstart =>
      exact .of_cut (h.passes.cut_inLineGap hgap hpasses) ((h.passes.trans hpasses).yields_lineEnd
        hline hend hstart fun hcomment => hbegun _ hpasses.rest (hcomment.append _))
    | eof hpasses hnil =>
      exact .of_cut (h.passes.cut_inLineGap hgap hpasses) ((h.passes.trans hpasses).yields_eof hnil)
  | error fault d =>
    obtain ⟨ch, n, hpasses, hfront, rfl⟩ := fault_tokenInLine hread
    have hd := h.passes.trans hpasses
    obtain ⟨rest, hrest⟩ := List.head?_eq_some_iff.mp hfront
    refine ⟨_, hd, cut_spaces (hd.text_eq ▸ List.prefix_append ..), ch, rest, ?_, ?_⟩
    · rw [hd.text_eq, hrest]
    · rw [hd.location_eq]

/-! ## The start of a line -/

/-- The spaces at the start of a line. -/
structure Indented (text p : List Char) (n : Nat) (d : Cursor) : Prop where
  passes : Passes (p ++ spaces n) (start text) d
  lastLine_eq : lastLine (p ++ spaces n) = spaces n
  cut : Cut text p (p ++ spaces n) []
  front : ∀ ch ∈ d.rest.head?, ch ≠ ' '

theorem Midway.indented (h : Midway text p c) (hc : c.atLineStart = true) :
    Indented text p (c.rest.takeWhile isSpace).length (c.skipWhile isSpace) := by
  have hpasses := h.passes.trans (.skipWhile (plain_isSpace false) c)
  rw [← spaces_takeWhile] at hpasses
  refine ⟨hpasses, ?_, cut_spaces (hpasses.text_eq ▸ List.prefix_append ..), fun ch hch => ?_⟩
  · rw [lastLine_append_of_inLine p inLine_spaces, h.lineStart hc, List.nil_append]
  · rintro rfl
    exact absurd (eq_false_of_head?_dropWhile hch) (by decide)

/-- At the start of a line that holds a token. -/
theorem Indented.midway {n : Nat} (h : Indented text p n d) (hd : d.rest = ch :: rest)
    (hcomment : ch ≠ '#') : Midway text (p ++ spaces n) d.inLine := by
  refine ⟨by simpa using h.passes.trans (.inLine d), nofun, fun _ => ?_, ?_⟩
  · rw [h.lastLine_eq, onlyComment_spaces_append, Cursor.inLine, hd]
    exact not_onlyComment_cons (h.front ch (by rw [hd]; rfl)) hcomment
  · rw [h.lastLine_eq]
    exact not_hash_mem_spaces n

theorem Indented.lineEndToken {n : Nat} (h : Indented text p n d) (hd : AtEnd d) :
    Yields text p d.lineEndToken := by
  refine .of_cut h.cut (yields_lineEndToken h.passes hd ?_)
  rw [h.lastLine_eq]
  exact not_onlyComment_spaces n

/-- A line with only a comment is passed over. -/
theorem Indented.commentLine {n : Nat} (h : Indented text p n d) (hd : d.rest = '#' :: rest)
    (hline : ∀ q, Midway text q (d.skipWhile isInLine).skipLineEnd →
      Yields text q (d.skipWhile isInLine).skipLineEnd.nextToken) :
    Yields text p (d.skipWhile isInLine).skipLineEnd.nextToken := by
  obtain ⟨note, hinLine, hcomment⟩ := Passes.comment hd
  have hend := atEnd_skipWhile_isInLine d
  generalize d.skipWhile isInLine = e at hline hcomment hend
  have he := h.passes.trans hcomment
  have hcut : Cut text p (p ++ spaces n ++ '#' :: note) [] :=
    h.cut.append_nil (cut_comment (he.text_eq ▸ List.prefix_append ..) hinLine)
  refine .of_cut hcut ?_
  cases hrest : e.rest with
  | nil =>
    have hsame : e.skipLineEnd = e := by rw [skipLineEnd, hrest]
    have hlast := he.trans (.skipWhile (plain_isSpace false) e)
    rw [hrest, List.takeWhile_nil, List.append_nil] at hlast
    rw [hsame, nextToken_of_nil hrest]
    exact hlast.yields_eof (by rw [Cursor.skipWhile, hrest]; rfl)
  | cons ch rest =>
    obtain ⟨lineEnd, hlineEnd, hpasses, hstart⟩ :=
      Passes.skipLineEnd hrest (hend ch (by rw [hrest]; rfl))
    have hlast : lastLine (p ++ spaces n ++ '#' :: note) = spaces n ++ '#' :: note := by
      rw [lastLine_append_of_inLine _ (List.forall_mem_cons.mpr ⟨rfl, hinLine⟩), h.lastLine_eq]
    have honly : OnlyComment (lastLine (p ++ spaces n ++ '#' :: note)) := by
      rw [hlast, onlyComment_spaces_append]
      rfl
    exact .of_cut (cut_lineEnd (hpasses.rest ▸ he.text_eq) hlineEnd (by simp) .nil
      (by rw [if_pos honly]; rfl)) (hline _ ((he.trans hpasses).midway hlineEnd hstart))

/-- The spaces in front of what a line holds are a token. -/
theorem Midway.indent {n : Nat} (h : Midway text p c) (hc : c.atLineStart = true)
    (hin : Indented text p n d) (hpasses : Passes (spaces n) c d) (hn : n ≠ 0)
    (hd : d.rest = ch :: rest) (hcomment : ch ≠ '#') (hend : isLineEnd ch = false) :
    Yields text p (.ok (c.token .indent (spaces n)) d.inLine) := by
  have hfront : ch ≠ ' ' := hin.front ch (by rw [hd]; rfl)
  have hword : Passes (spaces n) c d.inLine := by simpa using hpasses.trans (.inLine d)
  have hspaces : ∀ ch ∈ spaces n, ch = ' ' := fun ch hch => List.eq_of_mem_replicate hch
  refine h.passes.yields_word hword (by simpa [spaces] using hn) (fun ch hch => ?_) nofun nofun rfl
    ?_ h.noComment fun _ => ⟨h.lineStart hc, hspaces, ch, by rw [Cursor.inLine, hd]; rfl, hfront,
      hcomment, hend⟩
  · rw [hspaces ch hch]
    decide
  · rw [h.lineStart hc, List.nil_append, hpasses.rest, hd, onlyComment_spaces_append]
    exact not_onlyComment_cons hfront hcomment

theorem yields_nextToken (text : List Char) (c : Cursor) :
    ∀ p, Midway text p c → Yields text p c.nextToken := by
  fun_induction nextToken c with
  | case1 c hc d hfront =>
    exact fun p h => (h.indented hc).lineEndToken (by simp [AtEnd, d, hfront])
  | case2 c hc d rest hfront ih => exact fun p h => (h.indented hc).commentLine hfront ih
  | case3 c hc d ch rest hfront _ hend =>
    exact fun p h => (h.indented hc).lineEndToken (by simpa [AtEnd, d, hfront] using hend)
  | case4 c hc d ch rest hfront hcomment hend hspaces =>
    intro p h
    have hpasses : Passes (c.rest.takeWhile isSpace) c d := .skipWhile (plain_isSpace false) c
    have hne : c.rest.takeWhile isSpace ≠ [] := mt offset_skipWhile_eq_iff.mpr hspaces
    have hindent := h.indent hc (h.indented hc) (by rwa [spaces_takeWhile])
      (List.length_pos_iff.mpr hne).ne' hfront hcomment (by simpa using hend)
    rwa [spaces_takeWhile] at hindent
  | case5 c hc d ch rest hfront hcomment hend _ =>
    intro p h
    have hin := h.indented hc
    exact .of_cut hin.cut ((hin.midway hfront hcomment).tokenInLine rfl)
  | case6 c hc => exact fun p h => h.tokenInLine (by simpa using hc)

end Cursor

namespace Lexer

/-- Token after token is read, until the end of the text or a fault. -/
inductive Reads : Lexer → List Token → Option LocatedFault → Lexer → Prop where
  | eof {l l' : Lexer} {token : Token} : next l = .ok token l' → token.kind = .eof →
      Reads l [token] none l'
  | fault {l l' : Lexer} {fault : LocatedFault} : next l = .error fault l' →
      Reads l [] (some fault) l'
  | more {l l' l'' : Lexer} {token : Token} {tokens : List Token} {fault? : Option LocatedFault} :
      next l = .ok token l' → token.kind ≠ .eof → Reads l' tokens fault? l'' →
      Reads l (token :: tokens) fault? l''

variable {text p : List Char} {l l' : Lexer} {token : Token} {tokens : List Token}
  {fault : LocatedFault} {fault? : Option LocatedFault}

theorem next_eq_error (h : next l = .error fault l') :
    l.cursor.nextToken = .error fault l'.cursor := by
  unfold next at h
  split at h
  · cases h
  · next hread => cases h; exact hread

/-- Every step but the last one leaves less of the text. -/
theorem exists_reads (l : Lexer) : ∃ tokens fault? l', Reads l tokens fault? l' ∧
    tokens.length + fault?.toList.length ≤ l.cursor.rest.length + 1 := by
  cases hnext : next l with
  | error fault l' => exact ⟨[], some fault, l', .fault hnext, by simp⟩
  | ok token l' =>
    by_cases hkind : token.kind = .eof
    · exact ⟨[token], none, l', .eof hnext hkind, by simp⟩
    · have hlt := (Cursor.forward_nextToken (next_eq_ok hnext).1).2 hkind
      obtain ⟨tokens, fault?, l'', hreads, hcalls⟩ := exists_reads l'
      refine ⟨token :: tokens, fault?, l'', .more hnext hkind hreads, ?_⟩
      rw [List.length_cons]
      omega
termination_by l.cursor.rest.length

/-- A fault is reported at the first character that begins no token, and without a fault the text is
read to its end. -/
def StopsAt (text q : List Char) : Option LocatedFault → Prop
  | none => q = text
  | some fault => ∃ ch rest, text = q ++ ch :: rest ∧ fault = ⟨placeAfter q, .unexpectedChar ch⟩

theorem Reads.cut (h : Reads l tokens fault? l') (hl : l.cursor.Midway text p) :
    ∃ q, l'.cursor.offset = Utf8.size q ∧ Cut text p q tokens ∧ StopsAt text q fault? := by
  induction h generalizing p with
  | eof hnext hkind =>
    have hyields := Cursor.yields_nextToken text _ p hl
    rw [(next_eq_ok hnext).1] at hyields
    obtain ⟨q, hpasses, hcut, heof, -⟩ := hyields
    exact ⟨q, hpasses.offset_eq, hcut, heof hkind⟩
  | fault hnext =>
    have hyields := Cursor.yields_nextToken text _ p hl
    rw [next_eq_error hnext] at hyields
    obtain ⟨q, hpasses, hcut, hstops⟩ := hyields
    exact ⟨q, hpasses.offset_eq, hcut, hstops⟩
  | more hnext hkind _ ih =>
    have hyields := Cursor.yields_nextToken text _ p hl
    rw [(next_eq_ok hnext).1] at hyields
    obtain ⟨q, -, hcut, -, hmore⟩ := hyields
    obtain ⟨hmidway, hlt⟩ := hmore hkind
    obtain ⟨r, hoffset, hrest, hstops⟩ := ih hmidway
    exact ⟨r, hoffset, hcut.append hrest fun t ht => List.mem_singleton.mp ht ▸ hlt, hstops⟩

/-- Token after token, the end of a text or a fault is reached after no more steps than the text has
bytes and one. Up to there the tokens follow each other, each at the place where it says, and what
belongs to none of them is a space, a line end or in a comment. Only a line that is neither blank
nor a comment begins with an indentation, and for every line end behind anything else than only a
comment there is one token. -/
theorem tokens_cover_text (text : List Char) : ∃ tokens fault? l q,
    Reads (start text) tokens fault? l ∧
    tokens.length + fault?.toList.length ≤ Utf8.size text + 1 ∧
    l.cursor.offset = Utf8.size q ∧ Cut text [] q tokens ∧ StopsAt text q fault? := by
  obtain ⟨tokens, fault?, l, hreads, hcalls⟩ := exists_reads (start text)
  obtain ⟨q, hoffset, hcut, hstops⟩ := hreads.cut (Cursor.midway_start text)
  have hlength : (start text).cursor.rest.length ≤ Utf8.size text := Utf8.length_le_size text
  exact ⟨tokens, fault?, l, q, hreads, by omega, hoffset, hcut, hstops⟩

end Lexer

end Rebuild
