import LogRelay.Proofs.Binary64.Notation
import LogRelay.Proofs.List.Traverse
import LogRelay.Proofs.Text.Escape
import LogRelay.Proofs.Value.Structure

/-!
# The text of a value

What a message shows of a value, told for each kind of value. A container shows its parts between
brackets, with a comma between two of them, and a text is quoted inside a container.
-/

namespace LogRelay.Value

/-- The text shows the character between single quotes. -/
inductive Quotes : Char → List Char → Prop
  | quote : Quotes '\x27' "\\\x27".toList
  | other {c : Char} (other : c ≠ '\x27') : Quotes c [c]

/-- The text of an entry is that of its key, a colon, and that of its value. -/
inductive ShowsEntry (ShowsPart : Value → String → Prop) : Value × Value → String → Prop
  | mk {k v : Value} {key value : String} (first : ShowsPart k key) (second : ShowsPart v value) :
      ShowsEntry ShowsPart (k, v) (key ++ ": " ++ value)

/-- The text is what is shown of the value, inside a container or not. -/
inductive Displays : Bool → Value → String → Prop
  | nil {inner : Bool} : Displays inner .nil "None"
  | bool {inner b : Bool} : Displays inner (.bool b) (if b then "True" else "False")
  | counts {inner : Bool} {v : Value} {n : Int} (counts : v.Counts n) : Displays inner v n.repr
  | float {inner : Bool} {x : Binary64} {text : List Char} (displays : x.Displays text) :
      Displays inner (.float x) (String.ofList text)
  | plain {s : String} : Displays false (.text s) s
  | quoted {s : String} {parts : List (List Char)} (quotes : List.Forall₂ Quotes s.toList parts) :
      Displays true (.text s) ("\x27" ++ String.ofList parts.flatten ++ "\x27")
  | bytes {inner : Bool} {bs : List UInt8} {parts : List (List Char)}
      (escapes : List.Forall₂ Text.Escapes bs parts) :
      Displays inner (.bytes bs) ("b\x27" ++ String.ofList parts.flatten ++ "\x27")
  | array {inner : Bool} {vs : List Value} {texts : List String}
      (parts : List.Forall₂ (Displays true) vs texts) :
      Displays inner (.array vs) ("[" ++ String.intercalate ", " texts ++ "]")
  | map {inner : Bool} {entries : List (Value × Value)} {texts : List String}
      (parts : List.Forall₂ (ShowsEntry (Displays true)) entries texts) :
      Displays inner (.map entries) ("\x7b" ++ String.intercalate ", " texts ++ "\x7d")

/-! ## Texts and bytes -/

theorem quotes_iff {c : Char} {text : List Char} :
    Quotes c text ↔ (if c = '\x27' then ['\\', c] else [c]) = text := by
  constructor
  · intro h
    cases h with
    | quote => rfl
    | other other => rw [if_neg other]
  · rintro rfl
    split_ifs with hquote
    · exact hquote ▸ .quote
    · exact .other hquote

theorem forall₂_quotes_iff {s : String} {parts : List (List Char)} :
    List.Forall₂ Quotes s.toList parts ↔
      (s.toList.map fun c => if c = '\x27' then ['\\', c] else [c]) = parts :=
  forall₂_iff_map_eq fun _ _ _ => quotes_iff

theorem quoted_eq (s : String) :
    quoted s = "\x27" ++ String.ofList
      (s.toList.map fun c => if c = '\x27' then ['\\', c] else [c]).flatten ++ "\x27" := by
  rw [quoted, List.flatMap_def]
  exact String.toList_inj.mp (by simp)

theorem forall₂_escapes_iff {bs : List UInt8} {parts : List (List Char)} :
    List.Forall₂ Text.Escapes bs parts ↔ bs.map Text.escapeByte = parts :=
  forall₂_iff_map_eq fun _ _ _ => Text.escapes_iff

theorem escapeBytes_eq (bs : List UInt8) :
    Text.escapeBytes bs = String.ofList (bs.map Text.escapeByte).flatten := by
  rw [Text.escapeBytes, List.flatMap_def]

/-! ## Values -/

theorem shownItems_eq_map (items : List Value) : shownItems items = items.map (shown true) := by
  induction items with
  | nil => rfl
  | cons v rest ih => rw [shownItems, ih, List.map_cons]

theorem shownEntries_eq_map (entries : List (Value × Value)) :
    shownEntries entries =
      entries.map fun entry => entry.1.shown true ++ ": " ++ entry.2.shown true := by
  induction entries with
  | nil => rfl
  | cons entry rest ih => rw [shownEntries, ih, List.map_cons]

theorem displays_shown (inner : Bool) (v : Value) : v.Displays inner (v.shown inner) := by
  induction v using structural generalizing inner with
  | nil => exact .nil
  | bool b =>
      cases b with
      | false => exact .bool
      | true => exact .bool
  | int i => exact .counts .int
  | uint u => exact .counts .uint
  | float x =>
      rw [shown, ← String.ofList_toList (s := x.display)]
      exact .float (Binary64.displays_iff.mpr rfl)
  | text s =>
      cases inner with
      | false => exact .plain
      | true =>
          rw [shown, if_pos rfl, quoted_eq]
          exact .quoted (forall₂_quotes_iff.mpr rfl)
  | bytes bs =>
      rw [shown, escapeBytes_eq]
      exact .bytes (forall₂_escapes_iff.mpr rfl)
  | array items ih =>
      rw [shown, shownItems_eq_map]
      exact .array (List.forall₂_map_right_iff.mpr (List.forall₂_same.mpr fun v hv => ih v hv true))
  | map entries ih =>
      rw [shown, shownEntries_eq_map]
      refine .map (List.forall₂_map_right_iff.mpr (List.forall₂_same.mpr fun entry hentry => ?_))
      exact .mk ((ih entry hentry).1 true) ((ih entry hentry).2 true)

theorem Displays.shown_eq {inner : Bool} {v : Value} {text : String} (h : v.Displays inner text) :
    v.shown inner = text := by
  induction v using structural generalizing inner text with
  | array items ih =>
      cases h with
      | counts counts => cases counts
      | array parts =>
          have hitems : ∀ v ∈ items, ∀ text, Displays true v text ↔ v.shown true = text :=
            fun v hv _ => ⟨fun h => ih v hv h, fun h => h ▸ displays_shown true v⟩
          rw [shown, shownItems_eq_map, (forall₂_iff_map_eq hitems).mp parts]
  | map entries ih =>
      cases h with
      | counts counts => cases counts
      | map parts =>
          have hentries : ∀ entry ∈ entries, ∀ text, ShowsEntry (Displays true) entry text ↔
              entry.1.shown true ++ ": " ++ entry.2.shown true = text := by
            refine fun entry hentry text => ⟨?_, ?_⟩
            · rintro ⟨first, second⟩
              rw [(ih _ hentry).1 first, (ih _ hentry).2 second]
            · rintro rfl
              exact .mk (displays_shown true entry.1) (displays_shown true entry.2)
          rw [shown, shownEntries_eq_map, (forall₂_iff_map_eq hentries).mp parts]
  | bool b =>
      cases h with
      | bool => cases b <;> rfl
      | counts counts => cases counts
  | int i =>
      cases h with
      | counts counts =>
          cases counts
          rfl
  | uint u =>
      cases h with
      | counts counts =>
          cases counts
          rfl
  | float x =>
      cases h with
      | counts counts => cases counts
      | float displays => rw [shown, ← Binary64.displays_iff.mp displays, String.ofList_toList]
  | text s =>
      cases h with
      | counts counts => cases counts
      | plain => rfl
      | quoted quotes => rw [shown, if_pos rfl, quoted_eq, forall₂_quotes_iff.mp quotes]
  | bytes bs =>
      cases h with
      | counts counts => cases counts
      | bytes escapes => rw [shown, escapeBytes_eq, forall₂_escapes_iff.mp escapes]
  | nil =>
      cases h with
      | counts counts => cases counts
      | nil => rfl

/-- What is shown of a value is one text. -/
theorem displays_iff {inner : Bool} {v : Value} {text : String} :
    v.Displays inner text ↔ v.shown inner = text := by
  constructor
  · exact Displays.shown_eq
  · rintro rfl
    exact displays_shown inner v

end LogRelay.Value
