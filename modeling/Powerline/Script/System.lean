/-
The files of a common system with one terminal, as far as someone could take them for a port.
-/
import Powerline.Port.Path

namespace Powerline.FileTree

def partsOf (paths : List String) : List (List String) :=
  paths.map fun path => (Path.parts path).filter (· ≠ "")

/-- The folders of a common system. -/
def commonFolders : List String :=
  ["/bin", "/boot", "/dev", "/dev/fd", "/dev/mqueue", "/dev/pts", "/dev/shm", "/etc", "/home",
    "/lib", "/media", "/mnt", "/opt", "/proc", "/root", "/run", "/sbin", "/srv", "/sys", "/tmp",
    "/usr", "/usr/bin", "/usr/lib", "/usr/share", "/var", "/var/log", "/var/tmp"]

/-- The files of a common system that are no terminals. -/
def commonFiles : List String :=
  ["/dev/full", "/dev/null", "/dev/random", "/dev/stderr", "/dev/stdin", "/dev/stdout", "/dev/tty",
    "/dev/urandom", "/dev/zero", "/bin/sh", "/etc/group", "/etc/hostname", "/etc/hosts",
    "/etc/passwd", "/proc/cpuinfo", "/proc/meminfo", "/proc/version"]

/-- A common system with one terminal; the current folder is an empty one. -/
def common (terminal : String) : FileTree where
  folders := partsOf (commonFolders ++ ["/srv/here"])
  terminals := partsOf [terminal]
  plain := partsOf commonFiles
  current := ["srv", "here"]

example : (common "/dev/pts/0").site "/dev/../dev/null" = .other := by decide
example : (common "/dev/pts/0").site "//dev/./pts/0" = .terminal := by decide
example : (common "/dev/pts/0").site "/dev/pts/0/" = .other := by decide
example : (common "/dev/pts/0").site "/dev/nullx" = .absent := by decide
example : (common "/dev/pts/0").site "." = .other := by decide

end Powerline.FileTree
