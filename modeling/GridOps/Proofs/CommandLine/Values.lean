import GridOps.CommandLine.Options

/-!
The values that a command line gives to options.

Each value is one that its option allows: the default of the option, or a value that passed its
check (`values_ends`).
-/

namespace GridOps

/-- What is true of the value, or else of the error, that a computation ends with. -/
structure Ends {ε α : Type} (x : Except ε α) (P : α → Prop) (Q : ε → Prop) : Prop where
  ok : ∀ a, x = .ok a → P a
  error : ∀ e, x = .error e → Q e

namespace Ends

variable {ε α β : Type} {P : α → Prop} {Q : ε → Prop}

theorem pure {a : α} (h : P a) : Ends (.ok a) P Q :=
  ⟨fun _ heq => Except.ok.inj heq ▸ h, fun _ heq => nomatch heq⟩

theorem fail {e : ε} (h : Q e) : Ends (.error e : Except ε α) P Q :=
  ⟨fun _ heq => (nomatch heq), fun _ heq => Except.error.inj heq ▸ h⟩

theorem bind {x : Except ε α} {f : α → Except ε β} {R : β → Prop} (hx : Ends x P Q)
    (hf : ∀ a, P a → Ends (f a) R Q) : Ends (x >>= f) R Q := by
  cases x with
  | error e => exact fail (hx.error e rfl)
  | ok a => exact hf a (hx.ok a rfl)

theorem forM {f : α → Except ε Unit} (xs : List α) (h : ∀ a ∈ xs, Ends (f a) (fun _ => P a) Q) :
    Ends (xs.forM f) (fun _ => ∀ a ∈ xs, P a) Q := by
  induction xs with
  | nil => exact pure fun a ha => by cases ha
  | cons a rest ih =>
    refine bind (h a List.mem_cons_self) fun _ ha => ?_
    have hrest := ih fun b hb => h b (List.mem_cons_of_mem a hb)
    exact ⟨fun u hu => List.forall_mem_cons.mpr ⟨ha, hrest.ok u hu⟩, hrest.error⟩

theorem filterMapM {f : α → Except ε (Option β)} {R : β → Prop} (xs : List α)
    (h : ∀ a ∈ xs, Ends (f a) (fun b? => ∀ b ∈ b?, R b) Q) :
    Ends (xs.filterMapM f) (fun bs => ∀ b ∈ bs, R b) Q := by
  induction xs with
  | nil => exact pure fun b hb => by cases hb
  | cons a rest ih =>
    rw [List.filterMapM_cons]
    refine bind (h a List.mem_cons_self) fun b? hb => ?_
    have hrest := ih fun c hc => h c (List.mem_cons_of_mem a hc)
    cases b? with
    | none => exact hrest
    | some b =>
      exact bind hrest fun bs hbs => pure (List.forall_mem_cons.mpr ⟨hb b rfl, hbs⟩)

end Ends

namespace UsageError

/-- The arguments are refused, and not only the value of an option that has passed its check. -/
def Refuses : UsageError → Prop
  | unreadable _ => False
  | _ => True

end UsageError

namespace CommandLine

/-- A value that the option can have. -/
def Allows (o : OptionSpec) (text : String) : Prop :=
  o.default? = some text ∨ checkValue o text = .ok ()

theorem checkValue_ends (o : OptionSpec) (text : String) :
    Ends (checkValue o text) (fun _ => checkValue o text = .ok ()) UsageError.Refuses := by
  refine ⟨fun _ h => h, fun e h => ?_⟩
  unfold checkValue at h
  split at h
  · cases h
  · split at h
    · cases h
    · cases h
      trivial
  · rename_i check _
    cases hcheck : check text.toList with
    | ok u =>
      rw [hcheck] at h
      cases h
    | error reason =>
      rw [hcheck] at h
      cases h
      trivial

theorem checkValue_checked_iff {o : OptionSpec} {check : List Char → Except String Unit}
    {text : String} (hrule : o.rule = .checked check) :
    checkValue o text = .ok () ↔ check text.toList = .ok () := by
  have hchecked : checkValue o text = (check text.toList).mapError (.invalid o.name) := by
    rw [checkValue, hrule]
  rw [hchecked]
  cases check text.toList with
  | ok u => exact ⟨fun _ => rfl, fun _ => rfl⟩
  | error reason => exact ⟨nofun, nofun⟩

theorem scan_ends (options : List OptionSpec) (args : List String) :
    Ends (scan options args) (fun _ => True) UsageError.Refuses := by
  fun_induction scan options args with
  | case1 => exact .pure trivial
  | case2 => exact .pure trivial
  | case3 => exact .fail trivial
  | case4 => exact .fail trivial
  | case5 _ _ _ _ _ ih => exact ih.bind fun _ _ => .pure trivial
  | case6 => exact .pure trivial
  | case7 _ _ _ _ _ _ ih => exact ih.bind fun _ _ => .pure trivial
  | case8 _ _ _ _ _ _ ih => exact ih.bind fun _ _ => .pure trivial

theorem settle_ends (uses : List OptionUse) (o : OptionSpec) :
    Ends (settle uses o) (fun value? => ∀ text ∈ value?, Allows o text) UsageError.Refuses := by
  unfold settle
  extract_lets own values
  split
  · exact .fail trivial
  refine (Ends.forM values fun text _ => checkValue_ends o text).bind fun _ hvalues => ?_
  split
  · exact .fail trivial
  refine .pure fun text htext => ?_
  cases hhead : values.head? with
  | none =>
    rw [hhead] at htext
    exact .inl htext
  | some first =>
    rw [hhead] at htext
    obtain rfl := Option.some.inj htext
    exact .inr (hvalues _ (List.mem_of_head? hhead))

theorem values_ends (options : List OptionSpec) (args : List String) :
    Ends (values options args)
      (fun given => ∀ v ∈ given, ∃ o ∈ options, o.name = v.1 ∧ Allows o v.2)
      UsageError.Refuses := by
  refine (scan_ends options args).bind fun uses _ => ?_
  refine (Ends.forM (P := fun _ => True) _ fun o _ => ?_).bind fun _ _ => ?_
  · exact (settle_ends uses o).bind fun _ _ => .pure trivial
  · refine Ends.filterMapM options fun o ho => (settle_ends uses o).bind fun value? hvalue => ?_
    refine .pure fun v hv => ?_
    obtain ⟨text, htext, rfl⟩ := Option.map_eq_some_iff.mp hv
    exact ⟨o, ho, rfl, hvalue text htext⟩

end CommandLine
end GridOps
