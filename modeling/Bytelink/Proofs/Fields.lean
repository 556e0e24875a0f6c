import Bytelink.Host.Script.Field

/-!
# The arguments that words become

A word without expansions is one argument (`fields_written`). A list of items becomes the list of
its items, whatever is in them (`fields_items`). The result of an expansion is cut where separators
stand, and where these are blanks the pieces between them that are not empty become the arguments
(`fields_loose`).
-/
namespace Bytelink.Script.Splitting

variable {ifs : Separators} {p : Splitting} {t : Text}

/-- The fields when nothing more comes. -/
def ended (p : Splitting) : List Marked :=
  (if p.isBegun || p.afterItems then p.close else p).complete.reverse

theorem fields_eq (segments : List Segment) :
    fields ifs segments = (segments.foldl (add ifs) start).ended := rfl

/-- A segment that is neither cut nor a list. -/
def IsWritten : Segment → Prop
  | .fixed _ _ => True
  | .quotes => True
  | _ => False

/-- Whether segments are worth a field: quotes are, and so is any character. -/
def begins (segments : List Segment) : Bool :=
  segments.any fun
    | .fixed t _ => !t.isEmpty
    | .quotes => true
    | _ => false

theorem foldl_add_written {segments : List Segment} (h : ∀ s ∈ segments, IsWritten s) :
    segments.foldl (add ifs) p = { p with
      current := (Segment.markedOf segments).reverse ++ p.current
      isBegun := p.isBegun || begins segments } := by
  induction segments generalizing p with
  | nil => simp [Segment.markedOf, begins]
  | cons s segments ih =>
      have hrest := ih (p := add ifs p s) fun s' hs => h s' (List.mem_cons_of_mem s hs)
      rw [List.foldl_cons, hrest]
      cases s with
      | fixed t isQuoted =>
          simp [add, append, Segment.markedOf, begins, Bool.or_assoc]
      | quotes => simp [add, Segment.markedOf, begins]
      | _ => exact absurd (h _ List.mem_cons_self) id

/-- What is written without expansions is one argument, however it is quoted. -/
theorem fields_written {segments : List Segment} (h : ∀ s ∈ segments, IsWritten s) :
    fields ifs segments = if begins segments then [Segment.markedOf segments] else [] := by
  rw [fields_eq, foldl_add_written h]
  cases hbegins : begins segments <;> simp [ended, start, close]

theorem foldl_items (texts : List Text) :
    ((texts.foldl (fun p t => p.close.append (t.map (·, false))) p).close).complete =
      (texts.map fun t => t.map (·, false)).reverse ++ p.close.complete := by
  induction texts generalizing p with
  | nil => simp
  | cons t texts ih =>
      rw [List.foldl_cons, ih]
      simp [close, append]

/-- Each item is an argument, even an empty one. -/
theorem fields_items (texts : List Text) :
    fields ifs [.items texts] = texts.map fun t => t.map (·, false) := by
  cases texts with
  | nil => rfl
  | cons first rest =>
      have hitems := foldl_items (p := start.append (first.map (·, false))) rest
      have hsame : ∀ q : Splitting,
          ({ q with afterItems := true } : Splitting).close.complete = q.close.complete :=
        fun _ => rfl
      rw [fields_eq, List.foldl_cons, List.foldl_nil]
      simp only [add, ended, Bool.or_true, if_true]
      rw [hsame, hitems]
      simp [start, close, append]

theorem afterSeparator_eq (h : ∀ c, ifs.contains c = true → ifs.isSpace c = true)
    (mayTakeOther : Bool) (t : Text) :
    afterSeparator ifs mayTakeOther t = t.dropWhile ifs.contains := by
  induction t with
  | nil => rfl
  | cons c t ih =>
      unfold afterSeparator
      by_cases hc : ifs.contains c = true
      · simp [hc, h c hc, ih]
      · simp [hc]

/-- The pieces between separators that are not empty. -/
def pieces (ifs : Separators) (t : Text) : List Text :=
  (t.splitOnP ifs.contains).filter (!·.isEmpty)

theorem pieces_cons_of_pos {c : Char} (hc : ifs.contains c = true) :
    pieces ifs (c :: t) = pieces ifs t := by
  simp [pieces, List.splitOnP_cons_eq_if_modifyHead, hc]

theorem pieces_dropWhile : pieces ifs (t.dropWhile ifs.contains) = pieces ifs t := by
  induction t with
  | nil => rfl
  | cons c t ih =>
      by_cases hc : ifs.contains c = true
      · rw [List.dropWhile_cons_of_pos hc, ih, pieces_cons_of_pos hc]
      · rw [List.dropWhile_cons_of_neg hc]

theorem pieces_cons_of_neg {c : Char} (hc : ifs.contains c = false) :
    pieces ifs (c :: t) =
      (c :: t.takeWhile (!ifs.contains ·)) :: pieces ifs (t.dropWhile (!ifs.contains ·)) := by
  induction t generalizing c with
  | nil => simp [pieces, List.splitOnP_cons_eq_if_modifyHead, hc]
  | cons d t ih =>
      by_cases hd : ifs.contains d = true
      · simp [pieces, List.splitOnP_cons_eq_if_modifyHead, hc, hd]
      · rw [Bool.not_eq_true] at hd
        have hrest := ih hd
        unfold pieces at hrest ⊢
        simp only [List.splitOnP_cons_eq_if_modifyHead, hc, hd, Bool.false_eq_true, if_false,
          Bool.not_false, List.takeWhile_cons_of_pos, List.dropWhile_cons_of_pos] at hrest ⊢
        cases hsplit : t.splitOnP ifs.contains with
        | nil => exact absurd hsplit (List.splitOnP_ne_nil _ _)
        | cons first others =>
            simp only [hsplit, List.modifyHead_cons, List.filter_cons, List.isEmpty_cons,
              Bool.not_false, if_true, List.cons.injEq] at hrest ⊢
            exact ⟨⟨trivial, hrest.1⟩, hrest.2⟩

/-- What the fields will be when the rest of a text has been cut. -/
theorem ended_cut (h : ∀ c, ifs.contains c = true → ifs.isSpace c = true) {fuel : Nat}
    (hfuel : t.length < fuel) (hcurrent : p.isBegun = false → p.current = []) :
    ({ cut ifs false fuel p t with afterItems := false } : Splitting).ended = p.complete.reverse ++
      if p.isBegun then
        (p.current.reverse ++ (t.takeWhile (!ifs.contains ·)).map (·, true)) ::
          (pieces ifs (t.dropWhile (!ifs.contains ·))).map (·.map (·, true))
      else (pieces ifs t).map (·.map (·, true)) := by
  induction fuel generalizing p t with
  | zero => omega
  | succ fuel ih =>
      cases t with
      | nil => cases hbegun : p.isBegun <;> simp [cut, ended, hbegun, close, pieces]
      | cons c t =>
          have hlength : t.length < fuel := by simpa using hfuel
          unfold cut
          by_cases hc : ifs.contains c = true
          · have hrest : (t.dropWhile ifs.contains).length < fuel :=
              Nat.lt_of_le_of_lt (List.dropWhile_sublist _).length_le hlength
            cases hbegun : p.isBegun with
            | false =>
                simp only [hc, h c hc, Bool.not_true, Bool.not_false, Bool.and_self,
                  Bool.false_eq_true, if_false, if_true]
                rw [ih hlength hcurrent, hbegun, pieces_cons_of_pos hc]
                simp
            | true =>
                simp only [hc, h c hc, Bool.not_true, Bool.not_false, Bool.and_self,
                  Bool.and_false, Bool.false_eq_true, if_false]
                rw [ih (p := p.close) (by rwa [afterSeparator_eq h]) fun _ => rfl,
                  afterSeparator_eq h, pieces_dropWhile]
                simp [close, hc, pieces_cons_of_pos hc]
          · rw [Bool.not_eq_true] at hc
            have happend := ih (p := p.append [(c, true)]) hlength (by simp [append])
            simp only [hc, Bool.not_false, if_true]
            rw [happend]
            cases hbegun : p.isBegun with
            | false => simp [append, hcurrent hbegun, pieces_cons_of_neg hc]
            | true => simp [append, hc]

/-- Where all separators are blanks, the result of an expansion becomes the pieces between them. -/
theorem fields_loose (h : ∀ c, ifs.contains c = true → ifs.isSpace c = true) (t : Text) :
    fields ifs [.loose t] = (pieces ifs t).map (·.map (·, true)) := by
  have hcut := ended_cut (p := start) h (Nat.lt_succ_self t.length) fun _ => rfl
  rw [fields_eq, List.foldl_cons, List.foldl_nil]
  exact hcut

theorem fields_default (t : Text) : fields defaultSeparators [.loose t] =
    (pieces defaultSeparators t).map (·.map (·, true)) := by
  refine fields_loose (fun c hc => ?_) t
  rw [Separators.isSpace, hc, Bool.true_and]
  exact hc

end Bytelink.Script.Splitting
