import Mathlib.Tactic.SplitIfs
import PageOutline.Folder

/-!
# Paths and their texts

A path that was read from a text has clean steps, and it stays clean when steps are dropped or
followed. The text of a clean path is read back as the same path.
-/

namespace PageOutline.Path

/-- A path as reading makes it: it starts from one of three roots, and its steps are neither empty
nor a dot and have no slash in them. -/
structure Clean (p : Path) : Prop where
  root : p.root ∈ ["", "/", "//"]
  steps : ∀ step ∈ p.steps, step ≠ "" ∧ step ≠ "." ∧ '/' ∉ step.toList

variable {p q : Path}

/-- The separator is in none of the parts that it separates. -/
theorem notMem_of_mem_splitOn {c : Char} {cs part : List Char} (h : part ∈ cs.splitOn c) :
    c ∉ part := by
  induction cs generalizing part with
  | nil =>
    obtain rfl : part = [] := by simpa using h
    exact List.not_mem_nil
  | cons d cs ih =>
    rw [List.splitOn_cons_eq_if_modifyHead] at h
    split at h
    next => exact (List.mem_cons.1 h).elim (fun heq => by simp [heq]) ih
    next hne =>
      obtain ⟨first, others, hparts⟩ := List.exists_cons_of_ne_nil (List.splitOn_ne_nil c cs)
      rw [hparts] at h ih
      rcases List.mem_cons.1 h with rfl | h
      · have hcd : c ≠ d := fun heq => hne (by rw [heq]; exact beq_self_eq_true d)
        simp [hcd, ih List.mem_cons_self]
      · exact ih (List.mem_cons_of_mem _ h)

/-- A path that is read from a text is clean. -/
theorem clean_ofText (s : String) : (ofText s).Clean := by
  constructor
  case root =>
    unfold ofText
    dsimp only
    split_ifs <;> decide
  case steps =>
    intro step hstep
    obtain ⟨hmem, hkept⟩ := List.mem_filter.1 hstep
    obtain ⟨part, hpart, rfl⟩ := List.mem_map.1 hmem
    rw [Bool.and_eq_true, bne_iff_ne, Bool.not_eq_true', ← Bool.not_eq_true,
      String.isEmpty_iff] at hkept
    exact ⟨hkept.1, hkept.2, by rw [String.toList_ofList]; exact notMem_of_mem_splitOn hpart⟩

/-- The folder of a clean path is clean. -/
theorem Clean.parent (h : p.Clean) : p.parent.Clean :=
  ⟨h.root, fun step hstep => h.steps step (List.dropLast_subset _ hstep)⟩

/-- Clean paths are joined to a clean one. -/
theorem Clean.join (h : p.Clean) (hq : q.Clean) : (p.join q).Clean := by
  unfold Path.join
  split
  · exact hq
  · exact ⟨h.root, List.forall_mem_append.2 ⟨h.steps, hq.steps⟩⟩

/-! ### Reading a text with slashes in front -/

/-- Each slash in front makes an empty part. -/
theorem splitOn_replicate_append (n : Nat) (body : List Char) :
    (List.replicate n '/' ++ body).splitOn '/' = List.replicate n [] ++ body.splitOn '/' := by
  induction n with
  | zero => rfl
  | succ n ih =>
    rw [List.replicate_succ, List.cons_append, List.splitOn_cons_eq_if_modifyHead,
      if_pos (beq_self_eq_true '/'), ih]
    rfl

/-- The slashes in front decide the root and add no step. -/
theorem ofText_slashes (n : Nat) {body : List Char} (hbody : ∀ c ∈ body.head?, c ≠ '/') :
    ofText (String.ofList (List.replicate n '/' ++ body)) =
      { root := if n = 0 then "" else if n = 2 then "//" else "/"
        steps := ((body.splitOn '/').map String.ofList).filter fun step =>
          !step.isEmpty && step != "." } := by
  have hslashes : (List.replicate n '/').all (· == '/') = true := by simp
  have hstop : body.takeWhile (· == '/') = [] := by
    cases body with
    | nil => rfl
    | cons c body =>
      have hc : ¬(c == '/') = true := by simpa using hbody c rfl
      exact List.takeWhile_cons_of_neg hc
  have hlength : ((List.replicate n '/' ++ body).takeWhile (· == '/')).length = n := by
    rw [List.takeWhile_append_of_pos (List.all_eq_true.1 hslashes), hstop]
    simp
  have hempty : ((List.replicate n []).map String.ofList).filter
      (fun step => !step.isEmpty && step != ".") = [] := by
    simp
  unfold ofText
  dsimp only
  rw [String.toList_ofList, hlength, splitOn_replicate_append, List.map_append, List.filter_append,
    hempty, List.nil_append]

/-- The steps of a clean path are those that its text separates by slashes. -/
theorem Clean.filter_splitOn (h : p.Clean) :
    ((("/".intercalate p.steps).toList.splitOn '/').map String.ofList).filter
      (fun step => !step.isEmpty && step != ".") = p.steps := by
  cases hsteps : p.steps with
  | nil => rfl
  | cons step rest =>
    have hparts : ∀ part ∈ (step :: rest).map String.toList, '/' ∉ part := by
      intro part hpart
      obtain ⟨s, hs, rfl⟩ := List.mem_map.1 hpart
      exact (h.steps s (hsteps ▸ hs)).2.2
    have hsplit : (("/".intercalate (step :: rest)).toList.splitOn '/').map String.ofList =
        step :: rest := by
      rw [String.toList_intercalate, show "/".toList = ['/'] from rfl,
        List.splitOn_intercalate '/' hparts (by simp)]
      simp
    rw [hsplit]
    refine List.filter_eq_self.2 fun s hs => ?_
    obtain ⟨hempty, hdot, -⟩ := h.steps s (hsteps ▸ hs)
    simp [hempty, hdot]

/-- What follows the root in the text of a clean path does not start with a slash. -/
theorem Clean.head_steps (h : p.Clean) : ∀ c ∈ ("/".intercalate p.steps).toList.head?, c ≠ '/' := by
  intro c hc
  cases hsteps : p.steps with
  | nil =>
    rw [hsteps] at hc
    cases hc
  | cons step rest =>
    obtain ⟨hempty, -, hslash⟩ := h.steps step (by simp [hsteps])
    obtain ⟨d, ds, hstep⟩ := List.exists_cons_of_ne_nil fun hnil =>
      hempty (String.toList_eq_nil_iff.1 hnil)
    have hhead : ("/".intercalate (step :: rest)).toList.head? = some d := by
      cases rest <;> simp [String.intercalate_cons_cons, hstep]
    rw [hsteps, hhead] at hc
    cases hc
    rintro rfl
    exact hslash (by simp [hstep])

/-- The text of a clean path is read as that path. -/
theorem Clean.ofText_text (h : p.Clean) : ofText p.text = p := by
  by_cases hdot : p.root = "" ∧ p.steps = []
  · obtain ⟨root, steps⟩ := p
    obtain ⟨rfl, rfl⟩ := hdot
    rfl
  · have htext : p.text = p.root ++ "/".intercalate p.steps := by
      rw [text, if_neg]
      simpa using hdot
    have hread (n : Nat) (hroot : p.root = String.ofList (List.replicate n '/'))
        (hkept : p.root = if n = 0 then "" else if n = 2 then "//" else "/") :
        ofText p.text = p := by
      have hchars : p.text = String.ofList (List.replicate n '/' ++
          ("/".intercalate p.steps).toList) := by
        rw [htext, String.ofList_append, ← hroot, String.ofList_toList]
      rw [hchars, ofText_slashes n h.head_steps, h.filter_splitOn, ← hkept]
    have hroot := h.root
    simp only [List.mem_cons, List.not_mem_nil, or_false] at hroot
    rcases hroot with hroot | hroot | hroot
    · exact hread 0 hroot hroot
    · exact hread 1 hroot hroot
    · exact hread 2 hroot hroot

end PageOutline.Path

namespace PageOutline

/-- A folder with one file in it. -/
def sampleFolder (text : String) : Folder := ⟨[(["conf", "c.yaml"], text.toUTF8.data.toList)]⟩

/-- The file in this folder has the text. -/
theorem read_sampleFolder (text : String) :
    (sampleFolder text).read (.ofText "conf/c.yaml") = .ok text.toUTF8.data.toList := by
  unfold Folder.read
  rw [String.contains_char_eq]
  rfl

end PageOutline
