import StatAlmanac.Text.Progress
import StatAlmanac.Text.Utf8

/-!
From the bytes of a page to lines of plain text. Comments, scripts and styles
vanish, tags that start a new block become line ends, other tags become
spaces, character entities become their characters, and each line is squeezed;
empty lines are dropped.
-/

namespace StatAlmanac.Page

open Text Text.Reader

/-- Replaces what `r` reads, at every place from left to right where it reads something. -/
def replaceEach (r : Reader Unit) (h : r.Advances) (filler : List Char) : List Char → List Char
  | [] => []
  | c :: rest =>
      match _hr : r.first? (c :: rest) with
      | some (_, after) => filler ++ replaceEach r h filler after
      | none => c :: replaceEach r h filler rest
termination_by s => s.length
decreasing_by
  · exact h.first?_lt _hr
  · exact Nat.lt_succ_self _

def through (mark : List Char) : Reader Unit := seek (word mark)

def comment : Reader Unit := do
  word "<!--".toList
  through "-->".toList

def closingTag (name : List Char) : Reader Unit := do
  word ("</".toList ++ name)
  blanks
  one (· == '>')

/-- An element whose content is no text: from its opening tag through its first closing tag. -/
def hiddenElement (name : List Char) : Reader Unit := do
  word ('<' :: name)
  wordEnd
  seek (closingTag name)

def hidden : Reader Unit :=
  comment.orElse ((hiddenElement "script".toList).orElse (hiddenElement "style".toList))

def tagEnd : Reader Unit := seek (one (· == '>'))

def blockNames : List String :=
  ["br", "p", "div", "tr", "td", "th", "li", "dt", "dd", "h1", "h2", "h3", "h4", "h5", "h6",
    "table", "section", "aside"]

def oneOf (names : List (List Char)) : Reader Unit :=
  names.foldr (fun name others => (word name).orElse others) fun _ => []

/-- The opening or closing tag of an element that stands on lines of its own. -/
def blockTag : Reader Unit := do
  one (· == '<')
  blanks
  optional (one (· == '/'))
  blanks
  oneOf (blockNames.map String.toList)
  wordEnd
  tagEnd

def tag : Reader Unit := do
  one (· == '<')
  tagEnd

theorem advances_comment : comment.Advances :=
  (advances_word (by decide)).bind fun _ => keeps_seek (keeps_word _)

theorem keeps_closingTag (name : List Char) : (closingTag name).Keeps :=
  (keeps_word _).bind fun _ => keeps_blanks.bind fun _ => (advances_one _).keeps

theorem advances_hiddenElement (name : List Char) : (hiddenElement name).Advances :=
  (advances_word (List.cons_ne_nil _ _)).bind fun _ =>
    keeps_wordEnd.bind fun _ => keeps_seek (keeps_closingTag name)

theorem advances_hidden : hidden.Advances :=
  advances_comment.orElse ((advances_hiddenElement _).orElse (advances_hiddenElement _))

theorem keeps_tagEnd : tagEnd.Keeps := keeps_seek (advances_one _).keeps

theorem keeps_oneOf (names : List (List Char)) : (oneOf names).Keeps := by
  induction names with
  | nil => exact fun _ _ hx => nomatch hx
  | cons name names ih => exact (keeps_word name).orElse ih

theorem advances_blockTag : blockTag.Advances :=
  (advances_one _).bind fun _ => keeps_blanks.bind fun _ =>
    (keeps_optional (advances_one _).keeps).bind fun _ => keeps_blanks.bind fun _ =>
      (keeps_oneOf _).bind fun _ => keeps_wordEnd.bind fun _ => keeps_tagEnd

theorem advances_tag : tag.Advances := (advances_one _).bind fun _ => keeps_tagEnd

/-- Character entities in the order in which they are decoded. The ampersand comes last, so that
what it completes is left as it is. -/
def entities : List (String × Char) :=
  [("&nbsp;", ' '), ("&#160;", ' '), ("&lt;", '<'), ("&gt;", '>'), ("&quot;", '"'), ("&#39;", '\''),
    ("&#039;", '\''), ("&times;", '×'), ("&sup2;", '²'), ("&amp;", '&')]

def dropMark? : (mark s : List Char) → Option (List Char)
  | [], s => some s
  | _ :: _, [] => none
  | a :: mark, b :: s => if a = b then dropMark? mark s else none

/-- Replaces every occurrence of `mark`, from left to right. The next `skip` characters belong to
the last one found. -/
def replaceFrom (mark : List Char) (filler : Char) (skip : Nat) : List Char → List Char
  | [] => []
  | c :: s =>
      match skip with
      | skip + 1 => replaceFrom mark filler skip s
      | 0 =>
          if (dropMark? mark (c :: s)).isSome then
            filler :: replaceFrom mark filler (mark.length - 1) s
          else c :: replaceFrom mark filler 0 s

def hasMark (mark : List Char) : List Char → Bool
  | [] => mark.isEmpty
  | c :: s => (dropMark? mark (c :: s)).isSome || hasMark mark s

/-- A text without the mark is left as it is. -/
def decodeEntity (s : List Char) (e : String × Char) : List Char :=
  if hasMark e.1.toList s then replaceFrom e.1.toList e.2 0 s else s

def decodeEntities (s : List Char) : List Char := entities.foldl decodeEntity s

def squeezeLines (s : List Char) : List Char :=
  ['\n'].intercalate (((s.splitOn '\n').map squeeze).filter fun line => !line.isEmpty)

def plainText (s : List Char) : List Char :=
  let visible := replaceEach hidden advances_hidden [' '] s
  let lined := replaceEach blockTag advances_blockTag ['\n'] visible
  squeezeLines (decodeEntities (replaceEach tag advances_tag [' '] lined))

def documentText (body : Bytes) : List Char := plainText (Utf8.decodeLossy body)

end StatAlmanac.Page
