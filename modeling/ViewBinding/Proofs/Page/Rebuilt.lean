import ViewBinding.Proofs.Page.Handles
import ViewBinding.Proofs.Render.Rebuild

/-! Lists on pages that are reached. One list at a time is made anew, or left as it is. -/
namespace ViewBinding

open ViewBinding.Tree

namespace Page

variable {σ : Type} {page : Page σ}

end Page

end ViewBinding
