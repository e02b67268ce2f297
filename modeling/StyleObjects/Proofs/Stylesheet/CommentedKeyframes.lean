import StyleObjects.Proofs.Stylesheet.Cutting
import StyleObjects.Proofs.Stylesheet.Comments

/-!
# Keyframe blocks among comments

Keyframe blocks are cut out of a text before its comments are removed, so the search for headers and
the count of braces see what stands in comments.  Where no header meets a comment and every comment
in a block has as many opening as closing braces, this makes no difference: the same blocks are found
once the comments are removed, and their bodies are the former ones without comments.
-/

namespace StyleObjects

namespace Keyframes

open Text
open Comment (Piece IsRead flatMap_map_char)

/-! ## Comments that stand apart -/

/-- Where pieces are written out in some way, no header meets a comment: it ends before the comment
or begins behind it. -/
def HeadersApart (image : Piece → List Char) (pieces : List Piece) : Prop :=
  ∀ before header name after firsts body others,
    pieces.flatMap image = before ++ (header ++ after) → IsHeader header name →
    pieces = firsts ++ .comment body :: others →
    before.length + header.length ≤ (firsts.flatMap image).length ∨
      (firsts.flatMap image).length + (image (.comment body)).length ≤ before.length

/-- Comments stand apart from keyframe blocks: no header meets one, neither in the text nor in what
is left of it without comments, and those in a block have as many opening as closing braces. -/
structure CommentsApart (pieces : List Piece) : Prop where
  written : HeadersApart Piece.text pieces
  left : HeadersApart Piece.left pieces
  balanced : ∀ firsts header name inner body others,
    pieces = firsts ++ (header.map .char ++ (inner ++ .comment body :: others)) →
    IsHeader header name → StaysOpen (inner.flatMap Piece.left) → Balances 0 body

section Apart

variable {image : Piece → List Char} {pieces : List Piece}

theorem HeadersApart.of_append (firsts : List Piece)
    (apart : HeadersApart image (firsts ++ pieces)) : HeadersApart image pieces := by
  intro before header name after front body others split isHeader place
  have whole := apart (firsts.flatMap image ++ before) header name after (firsts ++ front) body others
    (by rw [List.flatMap_append, split, List.append_assoc]) isHeader
    (by rw [place, List.append_assoc])
  simp only [List.flatMap_append, List.length_append] at whole
  omega

theorem CommentsApart.of_append (firsts : List Piece) (apart : CommentsApart (firsts ++ pieces)) :
    CommentsApart pieces where
  written := apart.written.of_append firsts
  left := apart.left.of_append firsts
  balanced := by
    intro front header name inner body others place
    exact apart.balanced (firsts ++ front) header name inner body others
      (by rw [place, List.append_assoc])

/-- What is written before the first comment are characters. -/
theorem exists_chars (keeps : ∀ c, image (.char c) = [c]) {cs after : List Char}
    (split : pieces.flatMap image = cs ++ after)
    (clear : ∀ firsts body others, pieces = firsts ++ .comment body :: others →
      cs.length ≤ (firsts.flatMap image).length) :
    ∃ others, pieces = cs.map .char ++ others ∧ others.flatMap image = after := by
  induction cs generalizing pieces with
  | nil => exact ⟨pieces, rfl, split⟩
  | cons c cs ih =>
      cases pieces with
      | nil => cases split
      | cons piece pieces =>
          cases piece with
          | comment body =>
              have none := clear [] body pieces rfl
              simp at none
          | char d =>
              rw [List.flatMap_cons, keeps, List.singleton_append, List.cons_append,
                List.cons.injEq] at split
              obtain ⟨others, rfl, rest⟩ := ih split.2 (by
                intro firsts body others place
                have behind := clear (.char d :: firsts) body others (by rw [place, List.cons_append])
                rw [List.flatMap_cons, keeps, List.singleton_append, List.length_cons,
                  List.length_cons] at behind
                exact Nat.le_of_succ_le_succ behind)
              exact ⟨others, by rw [split.1]; rfl, rest⟩

/-- A header that begins at a character consists of characters. -/
theorem HeadersApart.exists_chars (keeps : ∀ c, image (.char c) = [c]) {c : Char}
    (apart : HeadersApart image (.char c :: pieces)) {header name after : List Char}
    (split : (Piece.char c :: pieces).flatMap image = header ++ after)
    (isHeader : IsHeader header name) :
    ∃ others, .char c :: pieces = header.map .char ++ others ∧ others.flatMap image = after := by
  apply Keyframes.exists_chars keeps split
  intro firsts body others place
  have clear := apart [] header name after firsts body others split isHeader place
  cases firsts with
  | nil => cases place
  | cons piece firsts =>
      cases place
      simp only [List.length_nil, List.flatMap_cons, keeps, List.singleton_append,
        List.length_cons] at clear ⊢
      omega

end Apart

/-- A comment stands behind a row of characters or before it. -/
theorem before_or_behind_chars {firsts others earlier later : List Piece} {cs body : List Char}
    (place : firsts ++ (cs.map .char ++ others) = earlier ++ .comment body :: later) :
    (∃ inner, earlier = firsts ++ (cs.map .char ++ inner)) ∨
      ∃ inner, firsts = earlier ++ .comment body :: inner := by
  have outside : Piece.comment body ∉ cs.map Piece.char := by simp
  rw [← List.append_assoc, List.append_eq_append_iff] at place
  rcases place with ⟨inner, behind, -⟩ | ⟨inner, within, starts⟩
  · exact .inl ⟨inner, by rw [behind, List.append_assoc]⟩
  · cases inner with
    | nil => exact .inl ⟨[], by rw [List.append_nil, within, List.append_nil]⟩
    | cons piece inner =>
        cases starts
        rw [List.append_eq_append_iff] at within
        rcases within with ⟨front, -, chars⟩ | ⟨back, whole, chars⟩
        · exact absurd (chars ▸ List.mem_append_right front List.mem_cons_self) outside
        · cases back with
          | nil =>
              rw [List.nil_append] at chars
              exact absurd (chars ▸ List.mem_cons_self) outside
          | cons piece back =>
              cases chars
              exact .inr ⟨back, whole⟩

/-- A header with the only at sign of a text stands apart from comments if it consists of
characters. -/
theorem headersApart_of_only {image : Piece → List Char} (keeps : ∀ c, image (.char c) = [c])
    {firsts others : List Piece} {header name : List Char} (isHeader : IsHeader header name)
    (before : '@' ∉ firsts.flatMap image) (behind : '@' ∉ header.tail ++ others.flatMap image) :
    HeadersApart image (firsts ++ (header.map .char ++ others)) := by
  intro front other called after earlier body later split isOther place
  rw [List.flatMap_append, List.flatMap_append, flatMap_map_char keeps] at split
  obtain ⟨tail, rfl⟩ := isHeader.exists_cons
  obtain ⟨rest, rfl⟩ := isOther.exists_cons
  -- The header begins at the only at sign, so it is the one that is known.
  obtain ⟨begins, -, rests⟩ : _ ∧ _ ∧ tail ++ others.flatMap image = rest ++ after :=
    (List.append_cons_inj_of_notMem before behind).mp split
  have known := takeHeader?_append isHeader (others.flatMap image)
  have found := takeHeader?_append isOther after
  rw [List.cons_append, ← rests] at found
  cases known.symm.trans found
  have same : tail = rest := List.append_cancel_right rests
  subst begins same
  rcases before_or_behind_chars place with ⟨inner, rfl⟩ | ⟨inner, rfl⟩
  · left
    rw [List.flatMap_append, List.flatMap_append, flatMap_map_char keeps]
    simp only [List.length_append]
    omega
  · right
    rw [List.flatMap_append, List.flatMap_cons]
    simp only [List.length_append]
    omega

/-! ## The search for headers -/

/-- No block begins in a comment. -/
theorem HeadersApart.cut_comment {image : Piece → List Char} {body : List Char}
    {pieces : List Piece} (apart : HeadersApart image (.comment body :: pieces)) :
    (cut ((Piece.comment body :: pieces).flatMap image)).2 = (cut (pieces.flatMap image)).2 := by
  rw [List.flatMap_cons]
  apply cut_append_of_startless
  intro start tail split filled
  rw [takeHeader?_eq_none_iff]
  intro header name after isHeader whole
  have clear := apart start header name after [] body pieces
    (by rw [List.flatMap_cons, split, List.append_assoc, whole]) isHeader rfl
  have begun := List.length_pos_iff.mpr filled
  have long := List.length_pos_iff.mpr isHeader.ne_nil
  rw [split] at clear
  simp only [List.flatMap_nil, List.length_nil, List.length_append] at clear
  omega

/-! ## The count of braces -/

/-- A way to write out pieces that leaves the count of braces as it is: characters stand for
themselves, and so do comments as long as they are balanced. -/
structure KeepsBraces (image : Piece → List Char) : Prop where
  char : ∀ c, image (.char c) = [c]
  comment : ∀ body, Balances 0 body → Balances 0 (image (.comment body))

theorem keepsBraces_text : KeepsBraces Piece.text where
  char := Piece.text_char
  comment := by
    intro body balanced
    have opening : Balances 0 ['/', '*'] := balances_of_not_mem (by decide) (by decide)
    have closing : Balances 0 ['*', '/'] := balances_of_not_mem (by decide) (by decide)
    exact opening.append (balanced.append closing)

theorem keepsBraces_left : KeepsBraces Piece.left where
  char := Piece.left_char
  comment := by
    intro body balanced
    apply balances_of_not_mem
    · intro member
      exact absurd (List.mem_filter.mp member).2 (by decide)
    · intro member
      exact absurd (List.mem_filter.mp member).2 (by decide)

/-- A piece that ends no block at some depth leads to another depth, in all ways to write it out. -/
def Passes (depth deeper : Nat) (piece : Piece) : Prop :=
  ∀ image, KeepsBraces image → ∀ cs, takeBody? depth (image piece ++ cs) =
    (takeBody? deeper cs).map fun (body, rest) => (image piece ++ body, rest)

theorem passes_comment {depth : Nat} {body : List Char} (balanced : Balances 0 body) :
    Passes depth depth (.comment body) := by
  intro image keeps cs
  exact takeBody?_append_of_balances (keeps.comment body balanced) cs

theorem exists_passes_char {depth : Nat} {c : Char} (inside : ¬(c = '\x7d' ∧ depth = 0)) :
    ∃ deeper, Passes depth deeper (.char c) := by
  refine ⟨if c = '\x7b' then depth + 1 else if c = '\x7d' then depth - 1 else depth, ?_⟩
  intro image keeps cs
  rw [keeps.char]
  exact takeBody?_cons inside cs

/-- Where the body of a block ends in pieces, in all ways to write them out. -/
structure EndsBody (depth : Nat) (pieces : List Piece)
    (found : Option (List Piece × List Piece)) : Prop where
  split : ∀ inner others, found = some (inner, others) → pieces = inner ++ .char '\x7d' :: others
  image : ∀ image, KeepsBraces image → takeBody? depth (pieces.flatMap image) =
    found.map fun (inner, others) => (inner.flatMap image, others.flatMap image)

theorem EndsBody.nil (depth : Nat) : EndsBody depth [] none where
  split := by
    rintro inner others ⟨⟩
  image := by
    intro image keeps
    rfl

/-- The brace that closes the block ends its body. -/
theorem EndsBody.closing (pieces : List Piece) :
    EndsBody 0 (.char '\x7d' :: pieces) (some ([], pieces)) where
  split := by
    rintro inner others ⟨⟩
    rfl
  image := by
    intro image keeps
    rw [List.flatMap_cons, keeps.char]
    rfl

theorem EndsBody.cons {depth deeper : Nat} {piece : Piece} {pieces : List Piece}
    {found : Option (List Piece × List Piece)} (passes : Passes depth deeper piece)
    (ends : EndsBody deeper pieces found) :
    EndsBody depth (piece :: pieces) (found.map fun (inner, others) => (piece :: inner, others)) where
  split := by
    intro inner others same
    obtain ⟨⟨first, rest⟩, known, same⟩ := Option.map_eq_some_iff.mp same
    cases same
    rw [ends.split first others known, List.cons_append]
  image := by
    intro image keeps
    rw [List.flatMap_cons, passes image keeps, ends.image image keeps, Option.map_map,
      Option.map_map]
    rfl

/-- A body ends at the same piece in all ways to write it out, as long as the comments in it are
balanced. -/
theorem exists_endsBody {depth : Nat} {pieces : List Piece}
    (balanced : ∀ inner body others, pieces = inner ++ .comment body :: others →
      takeBody? depth (inner.flatMap Piece.left) = none → Balances 0 body) :
    ∃ found, EndsBody depth pieces found := by
  induction pieces generalizing depth with
  | nil => exact ⟨none, .nil depth⟩
  | cons piece pieces ih =>
      have extend {deeper : Nat} (passes : Passes depth deeper piece) :
          ∃ found, EndsBody depth (piece :: pieces) found := by
        have balanced' : ∀ inner body others, pieces = inner ++ .comment body :: others →
            takeBody? deeper (inner.flatMap Piece.left) = none → Balances 0 body := by
          intro inner body others place opened
          apply balanced (piece :: inner) body others (by rw [place, List.cons_append])
          rw [List.flatMap_cons, passes Piece.left keepsBraces_left, opened, Option.map_none]
        obtain ⟨found, ends⟩ := ih balanced'
        exact ⟨_, ends.cons passes⟩
      cases piece with
      | comment body => exact extend (passes_comment (balanced [] body pieces rfl rfl))
      | char c =>
          by_cases ends : c = '\x7d' ∧ depth = 0
          · obtain ⟨rfl, rfl⟩ := ends
            exact ⟨_, .closing pieces⟩
          · obtain ⟨deeper, passes⟩ := exists_passes_char ends
            exact extend passes

/-! ## Blocks in pieces -/

/-- The names and bodies of blocks, where the pieces of their bodies are written out. -/
def written (image : Piece → List Char) (blocks : List (List Char × List Piece)) :
    List (List Char × List Char) :=
  blocks.map fun (name, inner) => (name, inner.flatMap image)

/-- The blocks that are cut out of pieces, in all ways to write them out in which no header meets a
comment. -/
structure CutsBlocks (pieces : List Piece) (blocks : List (List Char × List Piece)) : Prop where
  inside : ∀ block ∈ blocks, block.2 <:+: pieces
  image : ∀ image, KeepsBraces image → HeadersApart image pieces →
    (cut (pieces.flatMap image)).2 = written image blocks

theorem CutsBlocks.nil : CutsBlocks [] [] where
  inside := by
    intro block member
    cases member
  image := by
    intro image keeps clear
    rw [List.flatMap_nil, cut]
    rfl

/-- A piece at which no block begins. -/
theorem CutsBlocks.cons {piece : Piece} {pieces : List Piece}
    {blocks : List (List Char × List Piece)} (cuts : CutsBlocks pieces blocks)
    (startless : ∀ header name others, IsHeader header name →
      piece :: pieces ≠ header.map .char ++ others) : CutsBlocks (piece :: pieces) blocks where
  inside := by
    intro block member
    exact (cuts.inside block member).trans (List.suffix_cons piece pieces).isInfix
  image := by
    intro image keeps clear
    rw [← cuts.image image keeps (clear.of_append [piece])]
    cases piece with
    | comment body => exact clear.cut_comment
    | char c =>
        have first : takeHeader? (c :: pieces.flatMap image) = none := by
          rw [takeHeader?_eq_none_iff]
          intro header name after isHeader whole
          have split : (Piece.char c :: pieces).flatMap image = header ++ after := by
            rw [List.flatMap_cons, keeps.char, List.singleton_append, whole]
          obtain ⟨others, place, -⟩ := clear.exists_chars keeps.char split isHeader
          exact startless header name others isHeader place
        rw [List.flatMap_cons, keeps.char, List.singleton_append, cut_of_startless first]

section Header

variable {header name : List Char} {others : List Piece}

/-- A header whose block is never closed. -/
theorem CutsBlocks.of_unclosed (isHeader : IsHeader header name) (ends : EndsBody 0 others none) :
    CutsBlocks (header.map .char ++ others) [] where
  inside := by
    intro block member
    cases member
  image := by
    intro image keeps clear
    rw [List.flatMap_append, flatMap_map_char keeps.char, cut_of_unclosed]
    · rfl
    · rw [takeHeader?_append isHeader, Option.isSome_some]
    · rw [takeBlock?_of_isHeader isHeader, ends.image image keeps]
      rfl

/-- A header with its block, and the blocks behind it. -/
theorem CutsBlocks.of_closed {inner rest : List Piece} {blocks : List (List Char × List Piece)}
    (isHeader : IsHeader header name) (ends : EndsBody 0 others (some (inner, rest)))
    (cuts : CutsBlocks rest blocks) :
    CutsBlocks (header.map .char ++ others) ((name, inner) :: blocks) where
  inside := by
    have split := ends.split inner rest rfl
    intro block member
    rcases List.mem_cons.mp member with rfl | later
    · exact ⟨header.map .char, .char '\x7d' :: rest, by rw [split, List.append_assoc]⟩
    · refine (cuts.inside block later).trans (List.IsSuffix.isInfix ?_)
      exact ⟨header.map .char ++ (inner ++ [.char '\x7d']), by rw [split]; simp⟩
  image := by
    intro image keeps clear
    have clear' : HeadersApart image rest := by
      apply HeadersApart.of_append (header.map .char ++ (inner ++ [.char '\x7d']))
      rw [ends.split inner rest rfl] at clear
      simpa using clear
    have block : takeBlock? (header ++ others.flatMap image) =
        some ((name, inner.flatMap image), rest.flatMap image) := by
      rw [takeBlock?_of_isHeader isHeader, ends.image image keeps]
      rfl
    rw [List.flatMap_append, flatMap_map_char keeps.char, cut_of_takeBlock? block,
      cuts.image image keeps clear']
    rfl

end Header

/-- The same blocks are cut out of pieces in all ways to write them out in which no header meets a
comment. -/
theorem CommentsApart.exists_blocks {pieces : List Piece} (apart : CommentsApart pieces) :
    ∃ blocks, CutsBlocks pieces blocks := by
  cases pieces with
  | nil => exact ⟨[], .nil⟩
  | cons piece pieces =>
      by_cases starts : ∃ header name others, IsHeader header name ∧
          piece :: pieces = header.map .char ++ others
      · obtain ⟨header, name, others, isHeader, place⟩ := starts
        rw [place] at apart ⊢
        have balanced : ∀ inner body behind, others = inner ++ .comment body :: behind →
            takeBody? 0 (inner.flatMap Piece.left) = none → Balances 0 body := by
          intro inner body behind split opened
          exact apart.balanced [] header name inner body behind (by rw [split]; rfl) isHeader
            (takeBody?_eq_none_iff.mp opened)
        obtain ⟨found, ends⟩ := exists_endsBody balanced
        cases found with
        | none => exact ⟨[], .of_unclosed isHeader ends⟩
        | some found =>
            obtain ⟨inner, rest⟩ := found
            have split := ends.split inner rest rfl
            have apart' : CommentsApart rest := by
              apply CommentsApart.of_append (header.map .char ++ (inner ++ [.char '\x7d']))
              rw [split] at apart
              simpa using apart
            have shorter : rest.length < (piece :: pieces).length := by
              rw [place, split]
              simp only [List.length_append, List.length_cons]
              omega
            obtain ⟨blocks, cuts⟩ := apart'.exists_blocks
            exact ⟨_, .of_closed isHeader ends cuts⟩
      · obtain ⟨blocks, cuts⟩ := (apart.of_append [piece]).exists_blocks
        refine ⟨blocks, cuts.cons ?_⟩
        intro header name others isHeader place
        exact starts ⟨header, name, others, isHeader, place⟩
termination_by pieces.length

/-- The comments of a source stand apart from its keyframe blocks. -/
def HasCommentsApart (source : String) : Prop :=
  ∃ pieces, IsRead pieces ∧ pieces.flatMap Piece.text = source.toList ∧ CommentsApart pieces

/-- A body without its comments, and without the blanks around it. -/
def cleanBody (body : String) : String :=
  stripped (stripComments body)

theorem cleanBody_ofList (cs : List Char) :
    cleanBody (String.ofList cs) = String.ofList (trim (Comment.strip cs)) := by
  rw [cleanBody, stripComments, stripped, String.toList_ofList, String.toList_ofList]

/-- The blocks in a source without comments are those of the source, with clean bodies. -/
theorem blocks_stripComments {source : String} (apart : HasCommentsApart source) :
    (cutKeyframes (stripComments source)).blocks =
      (cutKeyframes source).blocks.map fun (name, body) => (name, cleanBody body) := by
  obtain ⟨pieces, isRead, text, apart⟩ := apart
  obtain ⟨blocks, cuts⟩ := apart.exists_blocks
  have left : (stripComments source).toList = pieces.flatMap Piece.left := by
    rw [stripComments, String.toList_ofList, ← text, isRead.strip_text]
  simp only [cutKeyframes, left, ← text, cuts.image _ keepsBraces_text apart.written,
    cuts.image _ keepsBraces_left apart.left, written, List.map_map]
  apply List.map_congr_left
  intro block member
  have body := (isRead.of_infix (cuts.inside block member)).strip_text
  simp only [Function.comp_apply, cleanBody_ofList, Comment.trim_strip_trim, body]

/-- A body is a part of the text in which it stands. -/
theorem body_isInfix {source : String} {entry : String × String}
    (member : entry ∈ (cutKeyframes source).blocks) : entry.2.toList <:+: source.toList := by
  obtain ⟨blocks, last, factors, -, entries⟩ := exists_factors_cut source.toList
  simp only [cutKeyframes, entries, List.map_map, List.mem_map] at member
  obtain ⟨block, member, rfl⟩ := member
  have inside : block.body <:+: source.toList := by
    rw [factors.eq_append]
    apply List.infix_append_of_infix_left
    refine List.IsInfix.trans ?_ (List.infix_of_mem_flatten (List.mem_map_of_mem member))
    exact ⟨block.before ++ block.header, ['\x7d'], by simp [Block.text]⟩
  simp only [Function.comp_apply, String.toList_ofList]
  exact (trim_isInfix block.body).trans inside

/-- Cleaning the body of a block in a text that has no comments leaves it as it is. -/
theorem cleanBody_of_mem_blocks {source : String} (bare : stripComments source = source)
    {entry : String × String} (member : entry ∈ (cutKeyframes source).blocks) :
    cleanBody entry.2 = entry.2 := by
  have whole : Comment.strip source.toList = source.toList := by
    rw [← String.toList_inj, stripComments, String.toList_ofList] at bare
    exact bare
  have body := Comment.strip_of_infix whole (body_isInfix member)
  simp only [cutKeyframes, List.mem_map] at member
  obtain ⟨block, -, rfl⟩ := member
  rw [String.toList_ofList] at body
  rw [cleanBody_ofList, body, trim_trim]

end Keyframes

open Keyframes
open Comment (Piece IsRead)

/-- Comments that stand apart from keyframe blocks do not matter for the table of keyframes: it has
the same names without them, and the bodies are the former ones without comments.  Where what is left
has no comments of its own, removing comments from both bodies makes them equal. -/
theorem cutKeyframes_stripComments {source : String} (apart : HasCommentsApart source) :
    (cutKeyframes (stripComments source)).table.keys = (cutKeyframes source).table.keys ∧
      (∀ name, (cutKeyframes (stripComments source)).table.get? name =
        ((cutKeyframes source).table.get? name).map cleanBody) ∧
      (stripComments (stripComments source) = stripComments source → ∀ name,
        ((cutKeyframes (stripComments source)).table.get? name).map cleanBody =
          ((cutKeyframes source).table.get? name).map cleanBody) := by
  have blocks := blocks_stripComments apart
  have bodies : ∀ name, (cutKeyframes (stripComments source)).table.get? name =
      ((cutKeyframes source).table.get? name).map cleanBody := by
    intro name
    rw [KeyframeCut.table, blocks]
    exact Table.get?_ofList_map cleanBody _ name
  refine ⟨?_, bodies, ?_⟩
  · rw [KeyframeCut.table, KeyframeCut.table, Table.keys_ofList, Table.keys_ofList, blocks,
      List.map_map]
    rfl
  · intro bare name
    rw [← bodies name]
    cases held : (cutKeyframes (stripComments source)).table.get? name with
    | none => rfl
    | some body =>
        rw [Option.map_some,
          cleanBody_of_mem_blocks bare (Table.mem_of_get?_ofList held)]

/-- A block with a comment before it and another one in its body. -/
def commentedText : String := "/* a */@keyframes x\x7b/* b */to\x7b\x7d\x7d"

/-- The text is a comment, a header, a comment and the rest of the block. -/
theorem hasCommentsApart_of_commentedText : HasCommentsApart commentedText := by
  have isHeader : IsHeader (keyword ++ [' ', 'x', '\x7b']) ['x'] :=
    @IsHeader.spelled [' '] ['x'] [] (by decide) rfl (by decide) rfl rfl
  refine ⟨[.comment [' ', 'a', ' ']] ++ ((keyword ++ [' ', 'x', '\x7b']).map .char ++
    (.comment [' ', 'b', ' '] :: ['t', 'o', '\x7b', '\x7d', '\x7d'].map .char)), ?_, ?_, ?_⟩
  · refine .comment (by rw [Comment.Closes]; decide) (IsRead.map_char_append ?_ (by decide))
    exact .comment (by rw [Comment.Closes]; decide) (Comment.isRead_map_char (by decide))
  · decide +kernel
  · constructor
    · exact headersApart_of_only Piece.text_char isHeader (by decide) (by decide)
    · exact headersApart_of_only Piece.left_char isHeader (by decide) (by decide)
    · intro firsts header name inner body others place isHeader opened
      have member : Piece.comment body ∈ firsts ++ (header.map .char ++
          (inner ++ .comment body :: others)) := by simp
      rw [← place] at member
      -- There are no braces in the two comments.
      simp only [List.mem_append, List.mem_cons, List.mem_map, List.not_mem_nil,
        Piece.comment.injEq, reduceCtorEq, and_false, exists_false, or_false, false_or] at member
      rcases member with rfl | rfl <;> exact balances_of_not_mem (by decide) (by decide)

/-- The block is found with and without the comments, and its body is left without its own. -/
theorem cutKeyframes_stripComments_of_commentedText :
    HasCommentsApart commentedText ∧
      stripComments (stripComments commentedText) = stripComments commentedText ∧
      (cutKeyframes (stripComments commentedText)).table.keys = ["x"] ∧
      (cutKeyframes (stripComments commentedText)).table.get? "x" = some "to\x7b\x7d" ∧
      (some "to\x7b\x7d").map cleanBody = (some "/* b */to\x7b\x7d").map cleanBody := by
  have keys : (cutKeyframes commentedText).table.keys = ["x"] := by decide +kernel
  have body : (cutKeyframes commentedText).table.get? "x" = some "/* b */to\x7b\x7d" := by
    decide +kernel
  have clean : cleanBody "/* b */to\x7b\x7d" = "to\x7b\x7d" := by decide +kernel
  have bare : stripComments (stripComments commentedText) = stripComments commentedText := by
    decide +kernel
  obtain ⟨names, bodies, equal⟩ := cutKeyframes_stripComments hasCommentsApart_of_commentedText
  have stripped := bodies "x"
  have agree := equal bare "x"
  rw [body, Option.map_some, clean] at stripped
  rw [stripped, body] at agree
  exact ⟨hasCommentsApart_of_commentedText, bare, names.trans keys, stripped, agree⟩

/-- A block in a comment is cut out, and a brace in a comment closes a block. -/
theorem cutKeyframes_of_comments :
    (cutKeyframes "/* @keyframes a \x7b\x7d */").table.keys = ["a"] ∧
      (cutKeyframes (stripComments "/* @keyframes a \x7b\x7d */")).table.keys = [] ∧
      ((cutKeyframes "@keyframes a \x7b/*\x7d*/\x7d").table.get? "a").map cleanBody = some "/*" ∧
      ((cutKeyframes (stripComments "@keyframes a \x7b/*\x7d*/\x7d")).table.get? "a").map
        cleanBody = some "" := by
  decide +kernel

end StyleObjects
