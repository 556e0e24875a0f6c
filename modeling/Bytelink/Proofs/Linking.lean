import Bytelink.Proofs.LineWise
import Bytelink.Link.Program

/-!
# Addresses in linked programs

The segment of some fragments is built by the offers of their listings, so all that holds of such
segments holds of it, and its symbols are those that the fragments declare, in order.

`link_resolves_line` joins the parser, the layout, the persisted form and substitution: a line that
refers to a declared name becomes an instruction with the address at which the bytes of the first
symbol of that name stand in the persisted segment. Naming the class afterwards does not touch the
line, because no character of it occurs in the placeholder.
-/
namespace Bytelink

namespace Text

variable {pattern new : Text}

theorem replaceAll_cons_of_not_prefix {c : Char} {rest : Text} (h : ¬ pattern <+: c :: rest) :
    replaceAll pattern new (c :: rest) = c :: replaceAll pattern new rest := by
  have hno : pattern.isPrefixOf (c :: rest) = false := by
    rw [← Bool.not_eq_true, List.isPrefixOf_iff_prefix]
    exact h
  simp only [replaceAll, replaceFrom, hno, Bool.false_eq_true, if_false]

/-- Where no occurrence that begins in `a` reaches beyond its end, `a` is replaced apart from what
follows. -/
theorem replaceFrom_append {a b : Text} (hapart : ∀ before after, a = before ++ after →
    after ≠ [] → pattern <+: after ++ b → pattern <+: after) {skip : Nat}
    (hskip : skip ≤ a.length) : replaceFrom pattern new skip (a ++ b) =
      replaceFrom pattern new skip a ++ replaceAll pattern new b := by
  induction a generalizing skip with
  | nil =>
      obtain rfl : skip = 0 := Nat.le_zero.mp hskip
      rfl
  | cons d a ih =>
      have hrest : ∀ before after, a = before ++ after → after ≠ [] →
          pattern <+: after ++ b → pattern <+: after := by
        intro before after hsplit
        exact hapart (d :: before) after (by rw [hsplit]; rfl)
      -- The characters to be passed over never reach `b`, since an occurrence ends in `a`.
      cases skip with
      | succ skip =>
          have hshort : skip ≤ a.length := Nat.le_of_succ_le_succ hskip
          simp only [List.cons_append, replaceFrom, ih hrest hshort]
      | zero =>
          have hiff : pattern.isPrefixOf (d :: (a ++ b)) = pattern.isPrefixOf (d :: a) := by
            rw [Bool.eq_iff_iff, List.isPrefixOf_iff_prefix, List.isPrefixOf_iff_prefix]
            constructor
            · exact hapart [] (d :: a) rfl (List.cons_ne_nil _ _)
            · exact fun h => h.trans (List.prefix_append (d :: a) b)
          by_cases hpre : pattern <+: d :: a
          · have hlen : pattern.length - 1 ≤ a.length := by
              have hle := hpre.length_le
              rw [List.length_cons] at hle
              omega
            simp only [List.cons_append, replaceFrom, hiff, List.isPrefixOf_iff_prefix.mpr hpre,
              if_true, ih hrest hlen, List.append_assoc]
          · have hno : pattern.isPrefixOf (d :: a) = false := by
              rwa [← Bool.not_eq_true, List.isPrefixOf_iff_prefix]
            simp only [List.cons_append, replaceFrom, hiff, hno, Bool.false_eq_true, if_false,
              ih hrest (Nat.zero_le _)]

theorem replaceAll_append {a b : Text} (hapart : ∀ before after, a = before ++ after →
    after ≠ [] → pattern <+: after ++ b → pattern <+: after) :
    replaceAll pattern new (a ++ b) = replaceAll pattern new a ++ replaceAll pattern new b :=
  replaceFrom_append hapart (Nat.zero_le _)

/-- A character outside the pattern separates what is replaced before and after it. -/
theorem replaceAll_append_cons {c : Char} (hp : pattern ≠ []) (hc : c ∉ pattern) (a b : Text) :
    replaceAll pattern new (a ++ c :: b) =
      replaceAll pattern new a ++ c :: replaceAll pattern new b := by
  have hno : ¬ pattern <+: c :: b := by
    intro hprefix
    obtain ⟨d, tail, rfl⟩ := List.exists_cons_of_ne_nil hp
    obtain ⟨rfl, -⟩ := List.cons_prefix_cons.mp hprefix
    exact hc List.mem_cons_self
  rw [replaceAll_append fun _ _ _ _ => (prefix_append_cons_iff hc).mp,
    replaceAll_cons_of_not_prefix hno]

/-- A run of characters outside the pattern is kept. -/
theorem replaceAll_append_of_disjoint {middle : Text} (hp : pattern ≠ [])
    (hmiddle : ∀ c ∈ middle, c ∉ pattern) (a b : Text) (hne : middle ≠ []) :
    replaceAll pattern new (a ++ (middle ++ b)) =
      replaceAll pattern new a ++ (middle ++ replaceAll pattern new b) := by
  induction middle generalizing a with
  | nil => exact absurd rfl hne
  | cons c middle ih =>
      rw [List.cons_append, replaceAll_append_cons hp (hmiddle c List.mem_cons_self)]
      cases middle with
      | nil => rfl
      | cons d middle =>
          have hrest : ∀ x ∈ d :: middle, x ∉ pattern :=
            fun x hx => hmiddle x (List.mem_cons_of_mem c hx)
          have hnil : replaceAll pattern new [] = [] := rfl
          have htail := ih hrest [] (by simp)
          rw [hnil, List.nil_append, List.nil_append] at htail
          exact congrArg (replaceAll pattern new a ++ c :: ·) htail

end Text

namespace Fragment

def offers (registry : Registry) (f : Fragment) : List Offer :=
  match f.listing with
  | none => []
  | some text => [⟨registry, f.origin, text⟩]

def symbols (registry : Registry) (f : Fragment) : List Symbol :=
  match f.listing with
  | none => []
  | some text => Grammar.symbols registry (Grammar.rows text)

end Fragment

namespace Segment

variable {registry : Registry} {fragments : List Fragment} {s s' : Segment}

theorem appendFragments_eq_ok (h : s.appendFragments registry fragments = .ok s') :
    s' = (fragments.flatMap (Fragment.offers registry)).foldl offer s ∧
      s'.symbols = s.symbols ++ fragments.flatMap (Fragment.symbols registry) := by
  induction fragments generalizing s with
  | nil =>
      obtain rfl := Except.ok.inj h
      simp
  | cons f rest ih =>
      cases hlisting : f.listing with
      | none =>
          simp only [appendFragments, hlisting] at h
          simpa [Fragment.offers, Fragment.symbols, hlisting] using ih h
      | some text =>
          cases hone : s.append registry f.origin text with
          | error e => simp [appendFragments, hlisting, hone] at h
          | ok next =>
              simp only [appendFragments, hlisting, hone] at h
              obtain ⟨hfold, hsymbols⟩ := ih h
              have hoffer : s.offer ⟨registry, f.origin, text⟩ = next := by
                simp only [offer, hone]
              obtain ⟨-, hnext, -⟩ := Grammar.append_eq_ok_iff.mp hone
              constructor
              · simp only [List.flatMap_cons, Fragment.offers, hlisting, List.singleton_append,
                  List.foldl_cons, hoffer]
                exact hfold
              · rw [hsymbols, hnext, List.flatMap_cons, List.append_assoc]
                simp only [Fragment.symbols, hlisting]

theorem ofFragments_eq_ofOffers (h : ofFragments registry fragments = .ok s) :
    s = ofOffers (fragments.flatMap (Fragment.offers registry)) :=
  (appendFragments_eq_ok h).1

theorem ofFragments_symbols (h : ofFragments registry fragments = .ok s) :
    s.symbols = fragments.flatMap (Fragment.symbols registry) :=
  (appendFragments_eq_ok h).2

theorem ofFragments_sized (h : ofFragments registry fragments = .ok s) : s.Sized := by
  rw [ofFragments_eq_ofOffers h]
  exact ofOffers_sized _

theorem ofFragments_singleLine (h : ofFragments registry fragments = .ok s) : s.SingleLine := by
  rw [ofFragments_eq_ofOffers h]
  exact ofOffers_singleLine _

/-- The first symbol of a declared name and the place of its bytes in the persisted segment. -/
theorem Sized.exists_first_placed (h : s.Sized) {name : Text} (hname : name ∈ s.names) :
    ∃ symbol offset, s.symbols.find? (fun entry => entry.name == name) = some symbol ∧
      s.offsetOf? name = some offset ∧ offset.toNat = sizeBefore name s.symbols ∧
      (s.toBytes.drop (4 + offset.toNat)).take symbol.payload.length = symbol.payload := by
  obtain ⟨symbol, back, hsplit, -, hfirst⟩ := exists_first (List.mem_map.mp hname)
  obtain ⟨placed, hfind⟩ := exists_find_layout hname
  have hoffset := h.offset_of_find? hfind
  refine ⟨symbol, placed.offset, hfirst, ?_, hoffset, ?_⟩
  · rw [offsetOf?, hfind]
    rfl
  · rw [hoffset]
    exact toBytes_slice hsplit

end Segment

theorem pushConstant_disjoint (value : Nat) : ∀ c ∈ pushConstant value, c ∉ placeholder := by
  have hopcode : ∀ c ∈ (if value ≤ immediateLimit then ("sipush " : Text) else ("ldc " : Text)),
      c ∉ placeholder := by
    split <;> simp [placeholder]
  have hletter : ∀ c ∈ placeholder, c.isDigit = false := by simp [placeholder]
  intro c hc
  rcases List.mem_append.mp hc with hc | hc
  · exact hopcode c hc
  · have hdigit : c.isDigit = true := Nat.isDigit_of_mem_toDigits (by decide) (by decide) hc
    intro hin
    rw [hletter c hin] at hdigit
    exact Bool.false_ne_true hdigit

section Lines

variable {template : Template} {fragments : List Fragment} {segment : Segment}

theorem unnamedText_append (before after : List Fragment) :
    unnamedText template (before ++ after) segment = unnamedText template before segment ++
      after.flatMap fun f => segment.substitute f.body := by
  simp only [unnamedText, List.flatMap_append, List.append_assoc]

/-- A template and bodies of whole lines are linked into whole lines. -/
theorem endsLine_unnamedText (hs : segment.Sized) (h : segment.SingleLine)
    (htemplate : EndsLine template.text) (hbodies : ∀ f ∈ fragments, f.body = [] ∨ EndsLine f.body) :
    EndsLine (unnamedText template fragments segment) := by
  induction fragments generalizing template with
  | nil => simpa [unnamedText] using htemplate
  | cons f rest ih =>
      have hfirst : EndsLine (template.text ++ segment.substitute f.body) := by
        rcases hbodies f List.mem_cons_self with hempty | hline
        · rwa [hempty, Segment.substitute_nil, List.append_nil]
        · exact (Segment.endsLine_substitute hs h hline).append_left template.text
      have hrest : EndsLine
          (unnamedText ⟨template.text ++ segment.substitute f.body⟩ rest segment) :=
        ih hfirst fun g hg => hbodies g (List.mem_cons_of_mem f hg)
      simpa [unnamedText, List.append_assoc] using hrest

theorem endsLine_nameClass {t : Text} (className : Text) (h : EndsLine t) :
    EndsLine (nameClass className t) := by
  obtain ⟨front, rfl⟩ := endsLine_iff.mp h
  rw [nameClass, Text.replaceAll_append_cons (by decide) (by decide)]
  exact endsLine_iff.mpr ⟨_, rfl⟩

/-- A line that refers to a declared name is linked into an instruction with the address of the
first symbol of that name, at the place where the text before the line ends. -/
theorem link_marker_line (hs : segment.Sized) (h : segment.SingleLine) {name : Text}
    (hname : name ∈ segment.names) (template : Template) (className : Text)
    (before after : List Fragment) {f : Fragment} {above below : Text}
    (habove : above = [] ∨ EndsLine above)
    (hbody : f.body = above ++ '\t' :: marker name ++ '\n' :: below) :
    ∃ back, (link template className (before ++ f :: after) segment).text =
      (link template className (before ++ [.ofBody f.origin above]) segment).text ++
        ('\t' :: pushConstant (baseAddress + sizeBefore name segment.symbols) ++ '\n' :: back) := by
  let address := baseAddress + sizeBefore name segment.symbols
  let middle : Text := '\t' :: (pushConstant address ++ ['\n'])
  have hline : segment.substitute ('\t' :: marker name) = '\t' :: pushConstant address :=
    Segment.substitute_marker_line hs hname (by decide : 's' ∉ ['\t'])
  have hsubst : segment.substitute f.body =
      segment.substitute above ++ (middle ++ segment.substitute below) := by
    rw [hbody, List.append_assoc, Segment.substitute_append hs h habove,
      Segment.substitute_append_line hs h, hline]
    simp [middle]
  have hmiddle : ∀ c ∈ middle, c ∉ placeholder := by
    intro c hc
    simp only [middle, List.mem_cons, List.mem_append, List.not_mem_nil, or_false] at hc
    rcases hc with rfl | hc | rfl
    · decide
    · exact pushConstant_disjoint address c hc
    · decide
  have htext : unnamedText template (before ++ f :: after) segment =
      unnamedText template (before ++ [.ofBody f.origin above]) segment ++ (middle ++
        (segment.substitute below ++ after.flatMap fun g => segment.substitute g.body)) := by
    rw [unnamedText_append, unnamedText_append, List.flatMap_cons, hsubst]
    simp [Fragment.ofBody]
  refine ⟨nameClass className
    (segment.substitute below ++ after.flatMap fun g => segment.substitute g.body), ?_⟩
  simp only [link, htext, nameClass]
  rw [Text.replaceAll_append_of_disjoint (by decide) hmiddle _ _ (List.cons_ne_nil _ _)]
  simp [middle, address]

end Lines

/-- In the text linked from any fragments whose listings are taken, a line that is a tab and the
marker of a declared name becomes a tab and the instruction that pushes `4096 + offset`, where the
bytes of the persisted segment from `4 + offset` on are the payload of the first symbol that the
fragments declare under that name. -/
theorem link_resolves_line {registry : Registry} {fragments : List Fragment} {segment : Segment}
    (hsegment : Segment.ofFragments registry fragments = .ok segment)
    {template : Template} (htemplate : EndsLine template.text)
    (hbodies : ∀ f ∈ fragments, EndsLine f.body) (className : Text)
    {name : Text} (hname : ∃ g ∈ fragments, ∃ symbol ∈ g.symbols registry, symbol.name = name)
    {before after : List Fragment} {f : Fragment} (hf : fragments = before ++ f :: after)
    {above below : Text} (habove : above = [] ∨ EndsLine above)
    (hbody : f.body = above ++ '\t' :: marker name ++ '\n' :: below) :
    ∃ symbol offset front back,
      (fragments.flatMap (Fragment.symbols registry)).find? (fun s => s.name == name) =
        some symbol ∧
      segment.offsetOf? name = some offset ∧
      (segment.toBytes.drop (4 + offset.toNat)).take symbol.payload.length = symbol.payload ∧
      (link template className fragments segment).text = front ++ '\t' ::
        ((if 4096 + offset.toNat ≤ 32767 then ("sipush " : Text) else ("ldc " : Text)) ++
          Text.decimal (4096 + offset.toNat)) ++ '\n' :: back ∧
      front = (link template className (before ++ [.ofBody f.origin above]) segment).text ∧
      EndsLine front := by
  have hs := Segment.ofFragments_sized hsegment
  have hsingle := Segment.ofFragments_singleLine hsegment
  have hsymbols := Segment.ofFragments_symbols hsegment
  have hdeclared : name ∈ segment.names := by
    obtain ⟨g, hg, symbol, hsymbol, rfl⟩ := hname
    rw [Segment.names, hsymbols]
    exact List.mem_map_of_mem (List.mem_flatMap.mpr ⟨g, hg, hsymbol⟩)
  obtain ⟨symbol, offset, hfirst, hoffset, hsize, hbytes⟩ := hs.exists_first_placed hdeclared
  obtain ⟨back, hlink⟩ :=
    link_marker_line hs hsingle hdeclared template className before after habove hbody
  -- What stands before the line ends in a line feed, so the instruction begins a line of its own.
  have hwhole : ∀ g ∈ before ++ [.ofBody f.origin above], g.body = [] ∨ EndsLine g.body := by
    intro g hg
    rcases List.mem_append.mp hg with hg | hg
    · exact .inr (hbodies g (by rw [hf]; exact List.mem_append_left _ hg))
    · obtain rfl := List.mem_singleton.mp hg
      exact habove
  refine ⟨symbol, offset, _, back, ?_, hoffset, hbytes, ?_, rfl, ?_⟩
  · rw [← hsymbols]
    exact hfirst
  · rw [hf, hlink, ← hsize, List.append_assoc]
    rfl
  · exact endsLine_nameClass className (endsLine_unnamedText hs hsingle htemplate hwhole)

/-- A fragment may refer to a symbol of a later one, here past the shorter name `A` of its own. -/
theorem link_resolves_forward_reference :
    let caller : Fragment := ⟨"a.c", "\tsymrefAendend\n", some "A:\n\t.ascii \"xy\"\n"⟩
    let callee : Fragment := ⟨"b.c", "\tsymrefAend\n", some "Aend:\n\t.ascii \"hi\"\nAend:\n"⟩
    let segment : Segment :=
      ⟨[⟨"A", [120, 121]⟩, ⟨"Aend", [104, 105]⟩, ⟨"Aend", []⟩], 4⟩
    let name : Text := "Aend"
    ∃ symbol offset front back,
      ([caller, callee].flatMap (Fragment.symbols .standard)).find? (fun s => s.name == name) =
        some symbol ∧
      segment.offsetOf? name = some offset ∧
      (segment.toBytes.drop (4 + offset.toNat)).take symbol.payload.length = symbol.payload ∧
      (link .standard "Main" [caller, callee] segment).text = front ++ '\t' ::
        ((if 4096 + offset.toNat ≤ 32767 then ("sipush " : Text) else ("ldc " : Text)) ++
          Text.decimal (4096 + offset.toNat)) ++ '\n' :: back ∧
      front = (link .standard "Main" [.ofBody "a.c" []] segment).text ∧ EndsLine front := by
  intro caller callee segment name
  have htaken : (Segment.ofFragments .standard [caller, callee]).toOption = some segment := by
    decide +kernel
  have hsegment : Segment.ofFragments .standard [caller, callee] = .ok segment := by
    cases hresult : Segment.ofFragments .standard [caller, callee] with
    | error e => simp [hresult, Except.toOption] at htaken
    | ok result => exact congrArg Except.ok (by simpa [hresult, Except.toOption] using htaken)
  have htemplate : EndsLine Template.standard.text := by
    unfold EndsLine
    decide +kernel
  have hbodies : ∀ f ∈ [caller, callee], EndsLine f.body := by
    simp only [List.forall_mem_cons, List.not_mem_nil, false_implies, implies_true, and_true]
    constructor <;> (unfold EndsLine; decide)
  have hname : ∃ g ∈ [caller, callee], ∃ symbol ∈ g.symbols .standard, symbol.name = name :=
    by
    have hsymbols : callee.symbols .standard = [⟨name, [104, 105]⟩, ⟨name, []⟩] := by
      decide +kernel
    refine ⟨callee, by simp, ⟨name, [104, 105]⟩, ?_, rfl⟩
    rw [hsymbols]
    exact List.mem_cons_self
  exact link_resolves_line hsegment htemplate hbodies "Main" hname
    (List.nil_append [caller, callee]).symm (.inl rfl)
    (by decide : caller.body = [] ++ '\t' :: marker name ++ '\n' :: [])

end Bytelink
