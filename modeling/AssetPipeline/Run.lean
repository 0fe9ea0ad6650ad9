import AssetPipeline.Fs

/-!
# Reasoning about runs

What a script leaves behind is `after s w`, whether it completed or stopped on an
exception. The results of the other modules are of two kinds, and this file gives each its
tools once.

* **Invariants of a run** (`Keeps P s`): `P` holds of the world a script leaves whenever it
  held at the start, exceptions included. Loops keep what every iteration keeps
  (`keeps_forEach`); reads keep everything; a write or a removal is handled by the spec
  lemma of the loop body that performs it.
* **Exact runs** (`s w = .ok a w'`): for the idempotence results, where a script that is
  run on a world it has already put in order completes and changes nothing (`forEach_ok`).

The `after_*_bind` lemmas are the evaluation rules of the reads: a body that tests a path
is unfolded by them with no case split on the primitive.
-/

namespace AssetPipeline

variable {α β : Type}

/-! ## Evaluation rules -/

theorem after_ok {s : Script α} {w w' : World} {a : α} (h : s w = .ok a w') : after s w = w' := by
  simp [after, h]

theorem after_error {s : Script α} {w w' : World} {e : Exc} (h : s w = .error e w') :
    after s w = w' := by
  simp [after, h]

theorem after_eq_of {s t : Script α} {w w' : World} (h : s w = t w') : after s w = after t w' := by
  unfold after
  rw [h]

theorem after_bind (x : Script α) (f : α → Script β) (w : World) :
    after (x >>= f) w = match x w with
      | .ok a w' => after (f a) w'
      | .error _ w' => w' := by
  show after (EStateM.bind x f) w = _
  unfold EStateM.bind after
  dsimp only
  rcases x w with ⟨a, w'⟩ | ⟨e, w'⟩ <;> rfl

theorem bind_apply (x : Script α) (f : α → Script β) (w : World) :
    (x >>= f) w = match x w with
      | .ok a w' => f a w'
      | .error e w' => .error e w' := by
  show EStateM.bind x f w = _
  unfold EStateM.bind
  rcases x w <;> rfl

/-- A property of where `x >>= f` stops, from one of where `x` stops and one of each
continuation. -/
theorem after_bind_of {P : World → Prop} {x : Script α} {f : α → Script β} {w : World}
    (hx : P (after x w)) (hf : ∀ a w', x w = .ok a w' → P w' → P (after (f a) w')) :
    P (after (x >>= f) w) := by
  rw [after_bind]
  rcases h : x w with ⟨a, w'⟩ | ⟨e, w'⟩
  · exact hf a w' h (after_ok h ▸ hx)
  · exact after_error h ▸ hx

theorem bind_ok {x : Script α} {f : α → Script β} {w w' : World} {a : α} (h : x w = .ok a w') :
    (x >>= f) w = f a w' := by
  rw [bind_apply, h]

/-- A bind that completed: its first part completed, and the rest completed after it. -/
theorem bind_eq_ok {x : Script α} {f : α → Script β} {w w'' : World} {b : β}
    (h : (x >>= f) w = .ok b w'') : ∃ a w', x w = .ok a w' ∧ f a w' = .ok b w'' := by
  rw [bind_apply] at h
  rcases hx : x w with ⟨a, w'⟩ | ⟨e, w'⟩ <;> rw [hx] at h
  · exact ⟨a, w', rfl, h⟩
  · cases h

@[simp] theorem after_pure (a : α) (w : World) : after (pure a : Script α) w = w := rfl

@[simp] theorem after_throw (e : Exc) (w : World) : after (throw e : Script α) w = w := rfl

@[simp] theorem after_walk_bind (r : Root) (f : List Path → Script β) (w : World) :
    after (walk r >>= f) w = after (f (w.tree r).paths) w := rfl

@[simp] theorem after_getTree_bind (r : Root) (f : Tree → Script β) (w : World) :
    after (getTree r >>= f) w = after (f (w.tree r)) w := rfl

@[simp] theorem after_pathExists_bind (r : Root) (p : Path) (f : Bool → Script β) (w : World) :
    after (pathExists r p >>= f) w = after (f ((w.tree r).present p)) w := rfl

@[simp] theorem after_isdir_bind (r : Root) (p : Path) (f : Bool → Script β) (w : World) :
    after (isdir r p >>= f) w = after (f ((w.tree r).isDir p)) w := rfl

theorem after_readFile_bind (r : Root) (p : Path) (f : Blob → Script β) (w : World) :
    after (readFile r p >>= f) w = match (w.tree r).get p with
      | some b => after (f b) w
      | none => w := by
  rw [after_bind]
  unfold readFile
  rcases (w.tree r).get p <;> rfl

@[simp] theorem after_attempt (s : Script Unit) (w : World) : after (attempt s) w = after s w := by
  unfold attempt after
  dsimp only
  rcases s w <;> rfl

theorem after_decodeText_bind (r : Root) (p : Path) (b : Blob) (f : String → Script β)
    (w : World) :
    after (decodeText r p b >>= f) w = match b.decode with
      | some s => after (f s) w
      | none => w := by
  unfold decodeText
  rcases b.decode <;> rfl

theorem after_removeFile (r : Root) (p : Path) (w : World) :
    after (removeFile r p) w =
      if (w.tree r).isFile p = true then w.set r ((w.tree r).erase p) else w := by
  unfold removeFile after
  by_cases h : (w.tree r).isFile p = true <;> simp [h]

theorem after_writeFile_bind (r : Root) (p : Path) (b : Blob) (f : Unit → Script β) (w : World) :
    after (writeFile r p b >>= f) w =
      if h : (p.dropLast = [] ∨ p.dropLast ∈ (w.tree r).dirs) ∧ (p ≠ [] ∧ p ∉ (w.tree r).dirs)
      then after (f ()) (w.set r ((w.tree r).put p b h.1 h.2)) else w := by
  rw [after_bind]
  unfold writeFile
  by_cases h : (p.dropLast = [] ∨ p.dropLast ∈ (w.tree r).dirs) ∧ (p ≠ [] ∧ p ∉ (w.tree r).dirs)
  · rw [dif_pos h, dif_pos h]
  · rw [dif_neg h, dif_neg h]

theorem after_writeFile (r : Root) (p : Path) (b : Blob) (w : World) :
    after (writeFile r p b) w =
      if h : (p.dropLast = [] ∨ p.dropLast ∈ (w.tree r).dirs) ∧ (p ≠ [] ∧ p ∉ (w.tree r).dirs)
      then w.set r ((w.tree r).put p b h.1 h.2) else w := by
  unfold writeFile after
  dsimp only
  by_cases h : (p.dropLast = [] ∨ p.dropLast ∈ (w.tree r).dirs) ∧ (p ≠ [] ∧ p ∉ (w.tree r).dirs)
  · rw [dif_pos h, dif_pos h]
  · rw [dif_neg h, dif_neg h]

theorem attempt_apply (s : Script Unit) (w : World) : attempt s w = .ok () (after s w) := by
  unfold attempt after
  rcases s w <;> rfl

@[simp] theorem after_attempt_bind (s : Script Unit) (f : Unit → Script β) (w : World) :
    after (attempt s >>= f) w = after (f ()) (after s w) := by
  rw [after_bind, attempt_apply]

@[simp] theorem after_pure_bind (a : α) (f : α → Script β) (w : World) :
    after (pure a >>= f) w = after (f a) w := rfl

/-! ## Invariants of a run -/

/-- `P` holds of the world `s` leaves, completed or not, whenever it held at the start. -/
def Keeps (P : World → Prop) (s : Script α) : Prop := ∀ w, P w → P (after s w)

namespace Keeps

variable {P : World → Prop}

theorem bind {x : Script α} {f : α → Script β} (hx : Keeps P x) (hf : ∀ a, Keeps P (f a)) :
    Keeps P (x >>= f) := by
  intro w hw
  have hx' := hx w hw
  rw [after_bind]
  rcases h : x w with ⟨a, w'⟩ | ⟨e, w'⟩
  · exact hf a w' (after_ok h ▸ hx')
  · exact after_error h ▸ hx'

theorem seq {x : Script Unit} {y : Script β} (hx : Keeps P x) (hy : Keeps P y) :
    Keeps P (do x; y) :=
  bind hx fun _ => hy

theorem pure (a : α) : Keeps P (Pure.pure a : Script α) := fun _ h => h

theorem getTree (r : Root) : Keeps P (AssetPipeline.getTree r) := fun _ h => h

theorem pathExists (r : Root) (p : Path) : Keeps P (AssetPipeline.pathExists r p) := fun _ h => h

theorem throw (e : Exc) : Keeps P (MonadExcept.throw e : Script α) := fun _ h => h

theorem ite {c : Prop} [Decidable c] {x y : Script α} (hx : Keeps P x) (hy : Keeps P y) :
    Keeps P (if c then x else y) := by
  split
  · exact hx
  · exact hy

theorem attempt {s : Script Unit} (h : Keeps P s) : Keeps P (AssetPipeline.attempt s) :=
  fun w hw => by simpa using h w hw

theorem readFile (r : Root) (p : Path) : Keeps P (AssetPipeline.readFile r p) := by
  intro w hw
  unfold AssetPipeline.readFile after
  dsimp only
  rcases (w.tree r).get p <;> exact hw

theorem decodeText (r : Root) (p : Path) (b : Blob) :
    Keeps P (AssetPipeline.decodeText r p b) := by
  unfold AssetPipeline.decodeText
  split
  · exact pure _
  · exact throw _

end Keeps

/-- **A loop keeps what each of its iterations keeps.** -/
theorem keeps_forEach {P : World → Prop} {xs : List α} {body : α → Script Unit}
    (h : ∀ x ∈ xs, Keeps P (body x)) : Keeps P (forEach xs body) := by
  induction xs with
  | nil => exact Keeps.pure _
  | cons x xs ih =>
    exact Keeps.seq (h x (List.mem_cons_self _ _))
      (ih fun y hy => h y (List.mem_cons_of_mem _ hy))

/-! ## Frame relations -/

/-- `w'` is `w` with files removed from the deployment root, each for a reason `R`; nothing
else changed. -/
def RemovedOnly (R : Path → Prop) (w w' : World) : Prop :=
  w'.src = w.src ∧ w'.data.dirs = w.data.dirs ∧
    ∀ q, w'.data.get q = w.data.get q ∨ (w'.data.get q = none ∧ R q)

namespace RemovedOnly

variable {R : Path → Prop} {w₁ w₂ w₃ : World}

theorem refl (R : Path → Prop) (w : World) : RemovedOnly R w w := ⟨rfl, rfl, fun _ => .inl rfl⟩

theorem trans (h₁ : RemovedOnly R w₁ w₂) (h₂ : RemovedOnly R w₂ w₃) : RemovedOnly R w₁ w₃ := by
  refine ⟨h₂.1.trans h₁.1, h₂.2.1.trans h₁.2.1, fun q => ?_⟩
  rcases h₂.2.2 q with h | h
  · rw [h]; exact h₁.2.2 q
  · exact .inr h

theorem mono {R' : Path → Prop} (h : RemovedOnly R w₁ w₂) (hR : ∀ q, R q → R' q) :
    RemovedOnly R' w₁ w₂ :=
  ⟨h.1, h.2.1, fun q => (h.2.2 q).imp_right fun h' => ⟨h'.1, hR q h'.2⟩⟩

theorem erase {p : Path} (hp : R p) (w : World) :
    RemovedOnly R w (w.set .data (w.data.erase p)) := by
  refine ⟨rfl, rfl, fun q => ?_⟩
  simp only [World.set_data, Tree.get_erase]
  split
  · subst_vars; exact .inr ⟨rfl, hp⟩
  · exact .inl rfl

theorem mem_of_mem (h : RemovedOnly R w₁ w₂) {q : Path} (hq : q ∈ w₂.data.paths) :
    q ∈ w₁.data.paths := by
  rw [Tree.mem_paths] at hq ⊢
  rcases h.2.2 q with e | ⟨e, -⟩ <;> rw [e] at hq
  · exact hq
  · cases hq

/-- A file that is gone was removed for the reason. -/
theorem reason (h : RemovedOnly R w₁ w₂) {q : Path} (hq : q ∈ w₁.data.paths)
    (hgone : q ∉ w₂.data.paths) : R q := by
  rw [Tree.mem_paths] at hq hgone
  rcases h.2.2 q with e | ⟨-, hr⟩
  · exact absurd (e ▸ hq) hgone
  · exact hr

/-- The removal step `os.remove(p)`, for a `p` that may be removed. -/
theorem removeFile {p : Path} (hp : R p) (w : World) :
    RemovedOnly R w (after (AssetPipeline.removeFile .data p) w) := by
  rw [after_removeFile]
  split
  · exact erase hp w
  · exact refl R w

/-- A loop whose iterations each remove only for `R`, from any world reached from `w`. -/
theorem forEach {xs : List α} {body : α → Script Unit} {w : World}
    (h : ∀ x ∈ xs, ∀ w', RemovedOnly R w w' → RemovedOnly R w' (after (body x) w')) :
    RemovedOnly R w (after (AssetPipeline.forEach xs body) w) :=
  keeps_forEach (P := RemovedOnly R w) (fun x hx w' hw' => hw'.trans (h x hx w' hw')) w (refl R w)

end RemovedOnly

/-- `w'` has every file of `w` with its content, the same directories and the same archive. -/
def AddsOnly (w w' : World) : Prop :=
  w'.src = w.src ∧ w'.data.dirs = w.data.dirs ∧
    ∀ q b, w.data.get q = some b → w'.data.get q = some b

theorem AddsOnly.refl (w : World) : AddsOnly w w := ⟨rfl, rfl, fun _ _ h => h⟩

theorem AddsOnly.trans {w₁ w₂ w₃ : World} (h₁ : AddsOnly w₁ w₂) (h₂ : AddsOnly w₂ w₃) :
    AddsOnly w₁ w₃ :=
  ⟨h₂.1.trans h₁.1, h₂.2.1.trans h₁.2.1, fun q b h => h₂.2.2 q b (h₁.2.2 q b h)⟩

/-! ## Spec lemmas of the primitives -/

theorem after_makedirs_bind (r : Root) (d : Path) (f : Unit → Script β) (w : World) :
    after (makedirs r d >>= f) w =
      if h : ∀ q ∈ d.inits, q ∉ (w.tree r).paths then after (f ()) (w.set r ((w.tree r).mkdirs d h))
      else w := by
  rw [after_bind]
  unfold makedirs
  by_cases h : ∀ q ∈ d.inits, q ∉ (w.tree r).paths
  · rw [dif_pos h, dif_pos h]
  · rw [dif_neg h, dif_neg h]

/-- What a move between the two roots leaves, for the destination `q'`: nothing changed, or
the content `b` of `p` written at `q'` and `p` removed. -/
def Moved (r₁ : Root) (p : Path) (r₂ : Root) (q' : Path) (w w' : World) : Prop :=
  w' = w ∨ ∃ b, (w.tree r₁).get p = some b ∧ w'.tree r₁ = (w.tree r₁).erase p ∧
    (w'.tree r₂).dirs = (w.tree r₂).dirs ∧
    ∀ x, (w'.tree r₂).get x = if x = q' then some b else (w.tree r₂).get x

theorem after_moveTo {r₁ r₂ : Root} (hr : r₁ ≠ r₂) (p q' : Path) (w : World) :
    Moved r₁ p r₂ q' w (after (moveTo r₁ p r₂ q') w) := by
  unfold moveTo
  rw [after_readFile_bind]
  rcases hb : (w.tree r₁).get p with _ | b
  · exact .inl rfl
  · dsimp only
    rw [after_writeFile_bind]
    split
    · rw [after_removeFile, World.tree_set_ne _ hr, if_pos (Tree.isFile_iff.mpr (by simp [hb]))]
      exact .inr ⟨b, hb, by simp [World.tree_set_ne _ hr], by simp [World.tree_set_ne _ hr.symm],
        fun x => by simp [World.tree_set_ne _ hr.symm]⟩
    · exact .inl rfl

/-- **`shutil.move` between the two roots** changes nothing, or moves `p` to `moveTarget`. -/
theorem after_move {r₁ r₂ : Root} (hr : r₁ ≠ r₂) (p q : Path) (w : World) :
    Moved r₁ p r₂ (moveTarget (w.tree r₂) p q) w (after (move r₁ p r₂ q) w) := by
  unfold move
  rw [after_isdir_bind]
  by_cases hd : (w.tree r₂).isDir q = true
  · rw [if_pos hd, after_pathExists_bind]
    by_cases he : (w.tree r₂).present (q ++ [baseName p]) = true
    · rw [if_pos he]
      exact .inl rfl
    · rw [if_neg he, after_pure_bind, moveTarget, if_pos hd]
      exact after_moveTo hr _ _ w
  · rw [if_neg hd, after_pure_bind, moveTarget, if_neg hd]
    exact after_moveTo hr _ _ w

/-- A rename that can proceed: the file is there, and its destination's parent is a directory
and the destination is not one. -/
theorem moveTo_ok {r₁ r₂ : Root} (hr : r₁ ≠ r₂) {p q : Path} {b : Blob} {w : World}
    (hb : (w.tree r₁).get p = some b) (hp : q.dropLast = [] ∨ q.dropLast ∈ (w.tree r₂).dirs)
    (hq : q ≠ [] ∧ q ∉ (w.tree r₂).dirs) :
    moveTo r₁ p r₂ q w =
      .ok () ((w.set r₂ ((w.tree r₂).put q b hp hq)).set r₁ ((w.tree r₁).erase p)) := by
  unfold moveTo
  rw [bind_ok (by simp [readFile, hb] : readFile r₁ p w = .ok b w),
    bind_ok (dif_pos ⟨hp, hq⟩ : writeFile r₂ q b w = .ok () _)]
  unfold removeFile
  rw [World.tree_set_ne _ hr, if_pos (Tree.isFile_iff.mpr (by simp [hb]))]

/-- `shutil.move` onto a path that is not a directory is the rename. -/
theorem move_of_not_dir {r₁ r₂ : Root} {p q : Path} {w : World}
    (hq : (w.tree r₂).isDir q = false) : move r₁ p r₂ q w = moveTo r₁ p r₂ q w := by
  simp [move, isdir, hq, bind, EStateM.bind, pure, EStateM.pure]

theorem readFile_of_get {r : Root} {p : Path} {b : Blob} {w : World}
    (h : (w.tree r).get p = some b) : readFile r p w = .ok b w := by
  simp [readFile, h]

theorem readFile_eq_ok {r : Root} {p : Path} {b : Blob} {w w' : World}
    (h : readFile r p w = .ok b w') : (w.tree r).get p = some b ∧ w' = w := by
  unfold readFile at h
  split at h <;> cases h
  exact ⟨‹_›, rfl⟩

theorem decodeText_eq_ok {r : Root} {p : Path} {b : Blob} {s : String} {w w' : World}
    (h : decodeText r p b w = .ok s w') : b.decode = some s ∧ w' = w := by
  unfold decodeText at h
  rcases hd : b.decode with _ | s' <;> rw [hd] at h <;> cases h
  exact ⟨rfl, rfl⟩

theorem writeFile_get {r : Root} {p : Path} {b : Blob} {w w' : World}
    (h : writeFile r p b w = .ok () w') : (w'.tree r).get p = some b := by
  unfold writeFile at h
  by_cases hc : (p.dropLast = [] ∨ p.dropLast ∈ (w.tree r).dirs) ∧ (p ≠ [] ∧ p ∉ (w.tree r).dirs)
  · rw [dif_pos hc] at h
    cases h
    cases r <;> simp
  · rw [dif_neg hc] at h
    cases h

/-- `w'` differs from `w` at most in the deployment files at the paths `W`: the same archive,
the same directories, the same file everywhere else. -/
def WritesOnly (W : Path → Prop) (w w' : World) : Prop :=
  w'.src = w.src ∧ w'.data.dirs = w.data.dirs ∧ ∀ q, ¬ W q → w'.data.get q = w.data.get q

namespace WritesOnly

variable {W : Path → Prop} {w₁ w₂ w₃ : World}

theorem refl (W : Path → Prop) (w : World) : WritesOnly W w w := ⟨rfl, rfl, fun _ _ => rfl⟩

theorem trans (h₁ : WritesOnly W w₁ w₂) (h₂ : WritesOnly W w₂ w₃) : WritesOnly W w₁ w₃ :=
  ⟨h₂.1.trans h₁.1, h₂.2.1.trans h₁.2.1, fun q hq => (h₂.2.2 q hq).trans (h₁.2.2 q hq)⟩

theorem mono {W' : Path → Prop} (h : WritesOnly W w₁ w₂) (hW : ∀ q, W q → W' q) :
    WritesOnly W' w₁ w₂ :=
  ⟨h.1, h.2.1, fun q hq => h.2.2 q fun h' => hq (hW q h')⟩

/-- A path the change does not write still exists exactly when it did. -/
theorem present (h : WritesOnly W w₁ w₂) {q : Path} (hq : ¬ W q) :
    w₂.data.present q = w₁.data.present q :=
  Tree.present_congr h.2.1 (h.2.2 q hq)

/-- `open(p, "w")` at the deployment root writes only `p`. -/
theorem writeFile (p : Path) (b : Blob) (w : World) :
    WritesOnly (· = p) w (after (AssetPipeline.writeFile .data p b) w) := by
  rw [after_writeFile]
  split
  · exact ⟨rfl, rfl, fun q hq => by simp [hq]⟩
  · exact refl _ w

theorem writeFile_ok {p : Path} {b : Blob} {w w' : World}
    (h : AssetPipeline.writeFile .data p b w = .ok () w') : WritesOnly (· = p) w w' :=
  after_ok h ▸ writeFile p b w

theorem keeps_writeFile {w₀ : World} {p : Path} (hp : W p) (b : Blob) :
    Keeps (WritesOnly W w₀) (AssetPipeline.writeFile .data p b) :=
  fun w h => h.trans ((writeFile p b w).mono fun _ e => e ▸ hp)

/-- A loop, completed or not, wrote only where each of its iterations writes. -/
theorem after_forEach {xs : List α} {body : α → Script Unit}
    (hb : ∀ x ∈ xs, ∀ w, WritesOnly W w (after (body x) w)) (w : World) :
    WritesOnly W w (after (AssetPipeline.forEach xs body) w) :=
  keeps_forEach (P := WritesOnly W w) (fun x hx w' hw' => hw'.trans (hb x hx w')) w (refl W w)

/-- A loop that completed wrote only where each of its iterations writes. -/
theorem forEach {xs : List α} {body : α → Script Unit} {w w' : World}
    (hb : ∀ x ∈ xs, ∀ w₁ w₂, body x w₁ = .ok () w₂ → WritesOnly W w₁ w₂)
    (h : AssetPipeline.forEach xs body w = .ok () w') : WritesOnly W w w' := by
  induction xs generalizing w with
  | nil => cases h; exact refl W _
  | cons x xs ih =>
    obtain ⟨_, w₁, h₁, h₂⟩ := bind_eq_ok h
    exact (hb x (List.mem_cons_self _ _) _ _ h₁).trans
      (ih (fun y hy => hb y (List.mem_cons_of_mem _ hy)) h₂)

end WritesOnly

/-- Every deployment file of `w` is still a file in `w'`, with whatever content. -/
def NoLoss (w w' : World) : Prop := ∀ q, w.data.isFile q = true → w'.data.isFile q = true

namespace NoLoss

theorem refl (w : World) : NoLoss w w := fun _ h => h

theorem trans {w₁ w₂ w₃ : World} (h₁ : NoLoss w₁ w₂) (h₂ : NoLoss w₂ w₃) : NoLoss w₁ w₃ :=
  fun q h => h₂ q (h₁ q h)

theorem writeFile (r : Root) (p : Path) (b : Blob) (w : World) :
    NoLoss w (after (AssetPipeline.writeFile r p b) w) := by
  rw [after_writeFile]
  split
  · intro q hq
    cases r
    · rw [Tree.isFile_iff] at hq
      rw [World.set_data, Tree.isFile_iff, Tree.get_put]
      split <;> simp_all
    · exact hq
  · exact refl w

theorem keeps_writeFile {w₀ : World} (r : Root) (p : Path) (b : Blob) :
    Keeps (NoLoss w₀) (AssetPipeline.writeFile r p b) :=
  fun w h => h.trans (writeFile r p b w)

/-- A loop, completed or not, loses no file when none of its iterations does. -/
theorem forEach {xs : List α} {body : α → Script Unit}
    (hb : ∀ x ∈ xs, ∀ w, NoLoss w (after (body x) w)) (w : World) :
    NoLoss w (after (AssetPipeline.forEach xs body) w) :=
  keeps_forEach (P := NoLoss w) (fun x hx w' hw' => hw'.trans (hb x hx w')) w (refl w)

end NoLoss

/-- `w'` has every file of `w` with its content, every path of `w` still exists, and the
archive is the same: the frame of a pass that only adds to `DATA_DIR`. -/
def Grows (w w' : World) : Prop :=
  w'.src = w.src ∧ (∀ q b, w.data.get q = some b → w'.data.get q = some b) ∧
    ∀ q, w.data.present q = true → w'.data.present q = true

namespace Grows

variable {w₀ w w₁ w₂ : World}

theorem refl (w : World) : Grows w w := ⟨rfl, fun _ _ h => h, fun _ h => h⟩

theorem trans (h₁ : Grows w₀ w₁) (h₂ : Grows w₁ w₂) : Grows w₀ w₂ :=
  ⟨h₂.1.trans h₁.1, fun q b h => h₂.2.1 q b (h₁.2.1 q b h), fun q h => h₂.2.2 q (h₁.2.2 q h)⟩

/-- Writing a path that holds no file of `w₀`. -/
theorem writeFile {p : Path} {b : Blob} (hg : Grows w₀ w) (hp : w₀.data.get p = none) :
    Grows w₀ (after (AssetPipeline.writeFile .data p b) w) := by
  rw [after_writeFile]
  split
  · rename_i hc
    simp only [World.tree_data, World.set_data]
    refine ⟨hg.1, fun q c hq => ?_, fun q hq => Tree.present_put hc.1 hc.2 (hg.2.2 q hq)⟩
    have hne : q ≠ p := by
      rintro rfl
      simp [hp] at hq
    simp [hg.2.1 q c hq, hne]
  · exact hg

theorem makedirs_bind {d : Path} {f : Unit → Script Unit} (hg : Grows w₀ w)
    (hf : ∀ w', Grows w₀ w' → Grows w₀ (after (f ()) w')) :
    Grows w₀ (after (AssetPipeline.makedirs .data d >>= f) w) := by
  rw [after_makedirs_bind]
  split
  · exact hf _ ⟨hg.1, fun q c hq => hg.2.1 q c hq, fun q hq => by
      simpa using Tree.present_mkdirs (hg.2.2 q hq)⟩
  · exact hg

/-- A loop, completed or not, only adds when each iteration only adds. -/
theorem forEach {xs : List α} {body : α → Script Unit}
    (hb : ∀ x ∈ xs, ∀ w, Grows w (after (body x) w)) (w : World) :
    Grows w (after (AssetPipeline.forEach xs body) w) :=
  keeps_forEach (P := Grows w) (fun x hx w' hw' => hw'.trans (hb x hx w')) w (refl w)

end Grows

/-! ## Exact runs -/

theorem forEach_cons (x : α) (xs : List α) (body : α → Script Unit) (w : World) :
    forEach (x :: xs) body w = match body x w with
      | .ok _ w' => forEach xs body w'
      | .error e w' => .error e w' := by
  rw [forEach]
  show EStateM.bind (body x) (fun _ => forEach xs body) w = _
  unfold EStateM.bind
  rcases body x w <;> rfl

/-- A loop that completed keeps what each of its completed iterations keeps. -/
theorem forEach_ok_keeps {P : World → Prop} {xs : List α} {body : α → Script Unit}
    {w w' : World} (hkeep : ∀ y ∈ xs, ∀ w₁ w₂, body y w₁ = .ok () w₂ → P w₁ → P w₂)
    (hw : P w) (h : forEach xs body w = .ok () w') : P w' := by
  induction xs generalizing w with
  | nil => cases h; exact hw
  | cons y ys ih =>
    obtain ⟨_, w₁, h₁, h₂⟩ := bind_eq_ok h
    exact ih (fun z hz => hkeep z (List.mem_cons_of_mem _ hz))
      (hkeep y (List.mem_cons_self _ _) _ _ h₁ hw) h₂

/-- A loop that completed over distinct items leaves `D x` for each item `x`, when each
iteration establishes its own and keeps every other item's. -/
theorem forEach_establishes {D : α → World → Prop} {xs : List α} {body : α → Script Unit}
    {w w' : World} (hnd : xs.Nodup) (hest : ∀ x ∈ xs, ∀ w₁ w₂, body x w₁ = .ok () w₂ → D x w₂)
    (hkeep : ∀ x ∈ xs, ∀ y ∈ xs, ∀ w₁ w₂, x ≠ y → body y w₁ = .ok () w₂ → D x w₁ → D x w₂)
    (h : forEach xs body w = .ok () w') : ∀ x ∈ xs, D x w' := by
  induction xs generalizing w with
  | nil => intro x hx; cases hx
  | cons y ys ih =>
    obtain ⟨_, w₁, h₁, h₂⟩ := bind_eq_ok h
    intro x hx
    rcases List.mem_cons.mp hx with rfl | hx'
    · exact forEach_ok_keeps (fun z hz w₂ w₃ =>
        hkeep x hx z (List.mem_cons_of_mem _ hz) w₂ w₃ fun he => (List.nodup_cons.mp hnd).1
          (he ▸ hz)) (hest x hx w w₁ h₁) h₂
    · exact ih (List.nodup_cons.mp hnd).2
        (fun z hz => hest z (List.mem_cons_of_mem _ hz))
        (fun z hz z' hz' => hkeep z (List.mem_cons_of_mem _ hz) z' (List.mem_cons_of_mem _ hz'))
        h₂ x hx'

theorem forEach_append (xs ys : List α) (body : α → Script Unit) (w : World) :
    forEach (xs ++ ys) body w = match forEach xs body w with
      | .ok _ w' => forEach ys body w'
      | .error e w' => .error e w' := by
  induction xs generalizing w with
  | nil => rfl
  | cons x xs ih =>
    rw [List.cons_append, forEach_cons, forEach_cons]
    rcases body x w with ⟨_, w₁⟩ | ⟨e, w₁⟩
    · exact ih w₁
    · rfl

/-- A loop whose every iteration completes without a change completes without a change. -/
theorem forEach_ok {xs : List α} {body : α → Script Unit} {w : World}
    (h : ∀ x ∈ xs, body x w = .ok () w) : forEach xs body w = .ok () w := by
  induction xs with
  | nil => rfl
  | cons x xs ih =>
    rw [forEach_cons, h x (List.mem_cons_self _ _)]
    exact ih fun y hy => h y (List.mem_cons_of_mem _ hy)

end AssetPipeline
