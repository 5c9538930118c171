import Mathlib
import UEServer.BadWord.Basic

/-!
# What the filter matches

The loop of `_MatchBarWord` matches a text exactly if it can be read without a choice, and what it matches
is a listed word.
-/

namespace UEServer.BadWord

theorem toLower_toLower (char : Char) : char.toLower.toLower = char.toLower := by
  simp only [Char.toLower]
  split
  · rename_i upper
    split
    · rename_i again
      simp only [UInt32.le_iff_toNat_le, UInt32.toNat_add, ge_iff_le] at upper again
      have high : 'A'.val.toNat = 65 := rfl
      have low : 'Z'.val.toNat = 90 := rfl
      have shift : ('a'.val - 'A'.val).toNat = 32 := rfl
      omega
    · rfl
  · rfl

section
variable {words spaces : List (List Char)} {path text : List Char} {char : Char}

variable {node : Trie Char}

theorem child_ofList (found : (Trie.ofList words).walk path = some node)
    (char : Char) :
    node.child char = none ∧ ¬ Goes words (path ++ [char]) ∨
      ∃ next, node.child char = some next ∧
        (Trie.ofList words).walk (path ++ [char]) = some next ∧ Goes words (path ++ [char]) ∧
          (next.wordEnd = true ↔ path ++ [char] ∈ words) := by
  have walked := Trie.walk_concat (Trie.ofList words) path char
  rw [found, Option.bind_some] at walked
  have exist := @Trie.isSome_walk_ofList _ _ words (path ++ [char])
  have marked := @Trie.ends_ofList _ _ words (path ++ [char])
  rw [Trie.Ends] at marked
  cases child : node.child char with
  | none =>
      refine .inl ⟨rfl, fun goes => ?_⟩
      have some := exist.mpr (.inr goes)
      rw [walked, child] at some
      cases some
  | some next =>
      rw [walked, child] at exist marked
      refine .inr ⟨next, rfl, walked.trans child, ?_, ?_⟩
      · exact (exist.mp rfl).resolve_left (by simp)
      · rw [← marked]
        simp

theorem goes_of_mem (listed : path ∈ words) : Goes words path :=
  ⟨path, listed, List.prefix_rfl⟩

/-- From a path on, a separator ends after some characters, and no other one ends before. -/
def EndsFirst (spaces : List (List Char)) (path rest : List Char) : Prop :=
  path ++ rest ∈ spaces ∧ rest ≠ [] ∧
    ∀ other, other ≠ [] → other <+: rest → path ++ other ∈ spaces → other = rest

theorem endsFirst_cons {char : Char} {rest : List Char} :
    EndsFirst spaces path (char :: rest) ↔
      if path ++ [char] ∈ spaces then rest = [] else EndsFirst spaces (path ++ [char]) rest := by
  split
  · rename_i listed
    constructor
    · intro first
      have same := first.2.2 [char] nofun ⟨rest, rfl⟩ listed
      exact (List.cons.inj same).2.symm
    · rintro rfl
      refine ⟨listed, nofun, fun other some part _ => ?_⟩
      cases other with
      | nil => exact absurd rfl some
      | cons head other =>
          obtain ⟨same, none⟩ := List.cons_prefix_cons.mp part
          rw [same, List.prefix_nil.mp none]
  · rename_i unlisted
    constructor
    · rintro ⟨listed, -, first⟩
      refine ⟨by rw [List.append_assoc]; exact listed, ?_, fun other some part listed' => ?_⟩
      · rintro rfl
        exact unlisted listed
      · have same := first (char :: other) nofun (List.cons_prefix_cons.mpr ⟨rfl, part⟩)
          (by rw [List.append_assoc] at listed'; exact listed')
        exact (List.cons.inj same).2
    · rintro ⟨listed, some, first⟩
      refine ⟨by rw [List.append_assoc] at listed; exact listed, nofun, fun other some' part listed' => ?_⟩
      cases other with
      | nil => exact absurd rfl some'
      | cons head other =>
          obtain ⟨same, part'⟩ := List.cons_prefix_cons.mp part
          rw [same] at listed' ⊢
          have nonempty : other ≠ [] := by
            rintro rfl
            exact unlisted listed'
          rw [first other nonempty part' (by rw [List.append_assoc]; exact listed')]

theorem matchSpaceWord_iff {after : List Char}
    (found : (Trie.ofList spaces).walk path = some node) :
    matchSpaceWord node text = some after ↔
      ∃ rest, EndsFirst spaces path rest ∧ text = rest ++ after := by
  induction text generalizing path node with
  | nil =>
      refine iff_of_false nofun ?_
      rintro ⟨rest, first, split⟩
      exact first.2.1 (List.append_eq_nil_iff.mp split.symm).1
  | cons char text ih =>
      rw [matchSpaceWord]
      have split : (∃ rest, EndsFirst spaces path rest ∧ char :: text = rest ++ after) ↔
          ∃ rest, EndsFirst spaces path (char :: rest) ∧ text = rest ++ after := by
        constructor
        · rintro ⟨rest, first, split⟩
          cases rest with
          | nil => exact absurd rfl first.2.1
          | cons head rest =>
              obtain ⟨same, split⟩ := List.cons.inj split
              exact ⟨rest, same ▸ first, split⟩
        · rintro ⟨rest, first, rfl⟩
          exact ⟨char :: rest, first, rfl⟩
      rw [split]
      simp only [endsFirst_cons]
      rcases child_ofList found char with ⟨none, stops⟩ | ⟨next, some, walked, goes, marked⟩
      · rw [none]
        refine iff_of_false nofun ?_
        rintro ⟨rest, first, -⟩
        split at first
        · exact stops (goes_of_mem ‹_›)
        · exact stops ⟨_, first.1, List.prefix_append _ _⟩
      · rw [some]
        dsimp only
        by_cases listed : path ++ [char] ∈ spaces
        · rw [if_pos (marked.mpr listed)]
          simp only [if_pos listed]
          simp
        · rw [if_neg (mt marked.mp listed)]
          simp only [if_neg listed]
          exact ih walked

theorem endsFirst_nil {space : List Char} : EndsFirst spaces [] space ↔ Shortest spaces space :=
  ⟨fun first => ⟨first.1, first.2.1, fun other listed nonempty part =>
    first.2.2 other nonempty part listed⟩,
  fun shortest => ⟨shortest.1, shortest.2.1, fun other nonempty part listed =>
    shortest.2.2 other listed nonempty part⟩⟩

theorem matchSpaceWord_ofList {after : List Char} :
    matchSpaceWord (Trie.ofList spaces) text = some after ↔
      ∃ space, Shortest spaces space ∧ text = space ++ after := by
  have root : (Trie.ofList spaces).walk [] = some (Trie.ofList spaces) := rfl
  simp only [matchSpaceWord_iff root, endsFirst_nil]

theorem Shortest.unique {space other rest after : List Char} (shortest : Shortest spaces space)
    (shortest' : Shortest spaces other) (same : space ++ rest = other ++ after) : space = other := by
  rcases List.prefix_or_prefix_of_prefix ⟨rest, rfl⟩ ⟨after, same.symm⟩ with part | part
  · exact shortest'.2.2 space shortest.1 shortest.2.1 part
  · exact (shortest.2.2 other shortest'.1 shortest'.2.1 part).symm

theorem not_plain_nil : ¬ Plain words spaces path [] := by
  generalize empty : ([] : List Char) = text
  intro plain
  cases plain <;> cases empty

/-- Where a listed word goes on with a character, the character belongs to it. -/
theorem plain_cons_of_goes (goes : Goes words (path ++ [char.toLower])) :
    Plain words spaces path (char :: text) ↔
      path ++ [char.toLower] ∈ words ∨ Plain words spaces (path ++ [char.toLower]) text := by
  constructor
  · generalize whole : char :: text = all
    intro plain
    cases plain with
    | ends listed =>
        cases whole
        exact .inl listed
    | goes _ later =>
        cases whole
        exact .inr later
    | skips stops =>
        cases whole
        exact absurd goes stops
  · rintro (listed | later)
    · exact .ends listed
    · exact .goes goes later

/-- Where no listed word goes on with a character, a separator is skipped. -/
theorem plain_cons_of_not_goes (stops : ¬ Goes words (path ++ [char.toLower])) :
    Plain words spaces path (char :: text) ↔
      ∃ space, Shortest spaces space ∧ ∃ after, char :: text = space ++ after ∧
        Plain words spaces path after := by
  constructor
  · generalize whole : char :: text = all
    intro plain
    cases plain with
    | ends listed =>
        cases whole
        exact absurd (goes_of_mem listed) stops
    | goes goes =>
        cases whole
        exact absurd goes stops
    | skips _ shortest later => exact ⟨_, shortest, _, rfl, later⟩
  · rintro ⟨space, shortest, after, whole, later⟩
    cases space with
    | nil => exact absurd rfl shortest.2.1
    | cons head space =>
        cases whole
        exact .skips stops shortest later

/-- The loop of `_MatchBarWord` matches what can be read without a choice. -/
theorem isSome_matchLoop {fuel : ℕ} (matched : Option (List Char))
    (found : (Trie.ofList words).walk path = some node) (enough : text.length ≤ fuel) :
    (matchLoop ⟨Trie.ofList words, Trie.ofList spaces⟩ fuel node matched text).isSome = true ↔
      matched.isSome = true ∨ Plain words spaces path text := by
  induction fuel generalizing node path text matched with
  | zero =>
      obtain rfl := List.length_eq_zero_iff.mp (Nat.le_zero.mp enough)
      rw [matchLoop, or_iff_left not_plain_nil]
  | succ fuel ih =>
      cases text with
      | nil =>
          rw [matchLoop, or_iff_left not_plain_nil]
          exact nofun
      | cons char text =>
          rw [List.length_cons, Nat.succ_le_succ_iff] at enough
          rw [matchLoop]
          rcases child_ofList found char.toLower with ⟨none, stops⟩ | ⟨next, child, walked, goes, marked⟩
          · rw [none, plain_cons_of_not_goes stops]
            cases skipped : matchSpaceWord (Trie.ofList spaces) (char :: text) with
            | none =>
                refine (or_iff_left ?_).symm
                rintro ⟨space, shortest, after, whole, -⟩
                have some := matchSpaceWord_ofList.mpr ⟨space, shortest, whole⟩
                cases skipped.symm.trans some
            | some after =>
                obtain ⟨space, shortest, whole⟩ := matchSpaceWord_ofList.mp skipped
                have shorter : after.length ≤ fuel := by
                  have length := congrArg List.length whole
                  have some := List.length_pos_iff.mpr shortest.2.1
                  rw [List.length_cons, List.length_append] at length
                  omega
                rw [ih matched found shorter]
                refine or_congr_right ⟨fun later => ⟨space, shortest, after, whole, later⟩, ?_⟩
                rintro ⟨other, shortest', after', whole', later⟩
                have same := shortest.unique shortest' (whole.symm.trans whole')
                rw [same] at whole
                rw [List.append_cancel_left (whole.symm.trans whole')]
                exact later
          · rw [child, plain_cons_of_goes goes]
            rw [ih _ walked enough, ← marked]
            cases next.wordEnd <;> simp

/-- From a path on, a text consists of separators and what is missing of a listed word. -/
def Completes (words spaces : List (List Char)) (path part : List Char) : Prop :=
  ∃ gap body, part = gap ++ body ∧ Gap spaces gap ∧
    ∃ rest, path ++ rest ∈ words ∧ Reads spaces rest body []

theorem gap_nil : Gap spaces [] := ⟨[], nofun, rfl⟩

theorem gap_append {space gap : List Char} (listed : space ∈ spaces) (skipped : Gap spaces gap) :
    Gap spaces (space ++ gap) := by
  obtain ⟨list, all, rfl⟩ := skipped
  exact ⟨space :: list, List.forall_mem_cons.mpr ⟨listed, all⟩, List.flatten_cons⟩

theorem matchLoop_completes {fuel : ℕ} {matched : Option (List Char)}
    {after : List Char} (found : (Trie.ofList words).walk path = some node)
    (result : matchLoop ⟨Trie.ofList words, Trie.ofList spaces⟩ fuel node matched text = some after) :
    matched = some after ∨ ∃ part, text = part ++ after ∧ Completes words spaces path part := by
  induction fuel generalizing node path text matched with
  | zero => exact .inl result
  | succ fuel ih =>
      cases text with
      | nil => exact .inl result
      | cons char text =>
          rw [matchLoop] at result
          have same : char.toLower.toLower = char.toLower := toLower_toLower char
          rcases child_ofList found char.toLower with ⟨none, stops⟩ | ⟨next, child, walked, goes, marked⟩
          · rw [none] at result
            dsimp only at result
            split at result
            · rename_i rest skipped
              obtain ⟨space, shortest, whole⟩ := matchSpaceWord_ofList.mp skipped
              refine (ih found result).imp_right ?_
              rintro ⟨part, rfl, gap, body, rfl, skips, completes⟩
              exact ⟨space ++ (gap ++ body), whole.trans (List.append_assoc _ _ _).symm, space ++ gap, body,
                (List.append_assoc _ _ _).symm, gap_append shortest.1 skips, completes⟩
            · exact .inl result
          · rw [child] at result
            rcases ih walked result with ended | ⟨part, rfl, gap, body, rfl, skips, rest, listed, reads⟩
            · split at ended
              · rename_i ends
                cases ended
                exact .inr ⟨[char], rfl, [], [char], rfl, gap_nil, [char.toLower], marked.mp ends,
                  .last same⟩
              · exact .inl ended
            · refine .inr ⟨char :: (gap ++ body), rfl, [], char :: (gap ++ body), rfl, gap_nil,
                char.toLower :: rest, ?_, .next same skips reads⟩
              rw [List.append_assoc] at listed
              exact listed

end

end UEServer.BadWord
