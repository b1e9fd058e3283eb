import LiveForm.Files.Tree

/-!
# Saving and reading texts

A text that was written to a file is what the file holds from then on.

* `Files.fromUTF8?_bytesOf`: the bytes of a text are those of that text;
* `Files.walk_mono`, `Files.at?_set`: a file that is written where no directory is stands in no
  one's way;
* **`Files.readText_writeText`, `Files.readText_saveText`**: what was saved is there and is read.
-/

namespace LiveForm

namespace Files

variable {fs fs' : Files} {p : Path} {place : List String} {s : String} {content : List UInt8}

/-! ## Bytes -/

theorem toList_loop (bs : ByteArray) (i : Nat) (r : List UInt8) :
    ByteArray.toList.loop bs i r = r.reverse ++ bs.data.toList.drop i := by
  rw [ByteArray.toList.loop]
  split
  · next h =>
    have hlt : i < bs.data.size := h
    have hget : bs.data.toList.drop i = bs.get! i :: bs.data.toList.drop (i + 1) := by
      rw [List.drop_eq_getElem_cons (by simpa using hlt), Array.getElem_toList]
      exact congrArg (· :: _) (getElem!_pos bs.data i hlt).symm
    rw [toList_loop bs (i + 1), hget, List.reverse_cons, List.append_assoc]
    rfl
  · next h =>
    have hnil : bs.data.toList.drop i = [] := List.drop_of_length_le (by
      simpa using Nat.le_of_not_lt h)
    rw [hnil, List.append_nil]
termination_by bs.size - i

/-- **The bytes of a text are those of that text.** -/
theorem fromUTF8?_bytesOf (s : String) :
    String.fromUTF8? (ByteArray.mk (bytesOf s).toArray) = some s := by
  have hbytes : ByteArray.mk (bytesOf s).toArray = s.toByteArray := by
    rw [bytesOf, String.toUTF8, ByteArray.toList, toList_loop]
    rfl
  rw [hbytes, String.fromUTF8?, dif_pos s.isValidUTF8]
  rfl

/-! ## Files -/

theorem walk_mono (h : ∀ q, fs.at? q = some .directory → fs'.at? q = some .directory)
    {names q : List String} (hwalk : fs.walk place names = .ok q) :
    fs'.walk place names = .ok q := by
  induction names generalizing place with
  | nil => exact hwalk
  | cons name names ih =>
    rw [walk] at hwalk ⊢
    split at hwalk
    · cases hwalk
    · cases hwalk
    · next hdirectory =>
      rw [h place hdirectory]
      exact ih hwalk

theorem at?_set (h : fs.at? place ≠ some .directory) (q : List String) :
    (⟨fs.nodes.set place (.file content)⟩ : Files).at? q =
      if place = q then some (.file content) else fs.at? q := by
  have hplace : atOrAboveRoot place = false := by
    rw [Bool.eq_false_iff]
    intro hroot
    exact h (if_pos hroot)
  rw [at?, Table.get?_set]
  by_cases hq : place = q
  · rw [if_pos hq, if_pos hq, ← hq, hplace, if_neg Bool.false_ne_true]
  · rw [if_neg hq, if_neg hq, at?]

/-- **What was written is there.** -/
theorem node_write (h : fs.write p content = .ok fs') : fs'.node p = .ok (.file content) := by
  rw [write] at h
  split at h
  · cases h
  · next place hwalk =>
    split at h
    · cases h
    · next hdirectory =>
      have hplace : fs.at? place ≠ some .directory := hdirectory
      obtain rfl := Except.ok.inj h
      have hkept : ∀ q, fs.at? q = some .directory →
          (⟨fs.nodes.set place (.file content)⟩ : Files).at? q = some .directory := by
        intro q hq
        have hne : place ≠ q := fun he => hplace (by rw [he, hq])
        rw [at?_set hplace, if_neg hne, hq]
      rw [node, walk_mono hkept hwalk]
      dsimp only
      rw [at?_set hplace, if_pos rfl]

/-- **A text that was written is read.** -/
theorem readText_writeText (h : fs.writeText p s = .ok fs') :
    fs'.has p = true ∧ fs'.readText p = .ok s := by
  have hnode := node_write h
  rw [has, readText, hnode]
  refine ⟨rfl, ?_⟩
  dsimp only
  rw [fromUTF8?_bytesOf]

theorem readText_saveText (h : fs.saveText p s = .ok fs') :
    fs'.has p = true ∧ fs'.readText p = .ok s := by
  rw [saveText] at h
  cases hmake : fs.makeDirectories p.parent with
  | error e =>
    rw [hmake] at h
    cases h
  | ok made =>
    rw [hmake] at h
    exact readText_writeText h

end Files

end LiveForm
